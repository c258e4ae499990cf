import ExpiringStore.Proofs.Counting.Basic
import ExpiringStore.Proofs.Table.Reply

/-!
# Fresh sizes

A store reads its own writes.  A call that has changed the table has forgotten the size before it
returns, so whatever it committed is settled by then; and a size that is returned to a later call
was counted after all that was settled when that call began.  How far a size may lag behind what
others do is bounded by the window for which it is kept.

    call returned with a change     →   all of its commits are settled         (changes_settled)
    size returns n                  →   a commit that counted n is not among those that were
                                        settled when the call began            (size_counted)
-/

namespace ExpiringStore

variable {τ : Type}

namespace Call

/-- Does the answer to a call tell of a change of the table? -/
def changes : Call → Answer → Bool
  | .put _ _ _ _, _ => true
  | .putIfAbsent _ _ _ _, .lookup .miss => true
  | .putAll _ _ _, .value (.int n) => n != 0
  | .refreshTtl _ _ _, .value (.bool b) => b
  | .evict _, .value (.bool b) => b
  | .evictAll _, .value (.int n) => n != 0
  | .evictByPattern _, .value (.int n) => n != 0
  | .clear, _ => true
  | .cleanupExpired, .value (.int n) => n != 0
  | _, _ => false

/-- Marks after which all is settled, with a commit among them that has changed the table. -/
def Changed (ms : List (Mark τ)) : Prop :=
  (∀ b, ms.foldl Mark.settles b = true) ∧
    ∃ (a : Transaction τ) (r : a.Reply), .committed a r ∈ ms ∧ a.isQuiet r = false

theorem settles_announced {es : List Event} {told : List (Mark τ)} (h : Announced es told)
    (b : Bool) :
    told.foldl Mark.settles b = b := by
  induction h generalizing b with
  | nil => rfl
  | cons e ls rest ih =>
    have hlist : (ls.map fun l => (Mark.told l e : Mark τ)).foldl Mark.settles b = b := by
      induction ls with
      | nil => rfl
      | cons l ls ih => exact ih
    rw [List.cons_append, List.foldl_cons, List.foldl_append]
    show List.foldl _ (List.foldl _ b _) _ = b
    rw [hlist, ih]

/-- Marks that end with forgetting the size and with telling of events. -/
theorem changed_of_forget {es : List Event} {ms told : List (Mark τ)} (h : Announced es told)
    {a : Transaction τ} {r : a.Reply} (mem : .committed a r ∈ ms) (loud : a.isQuiet r = false) :
    Changed (ms ++ .noted .forgetSize :: told) := by
  refine ⟨fun b => ?_, a, r, List.mem_append_left _ mem, loud⟩
  rw [List.foldl_append, List.foldl_cons]
  exact settles_announced h true

theorem changed_of_removed {keys : List String} {told : List (Mark τ)} (h : Removed keys told)
    (any : keys.length ≠ 0) {a : Transaction τ} {r : a.Reply} (loud : a.isQuiet r = false) :
    Changed (.committed a r :: told) := by
  cases h with
  | none => exact absurd rfl any
  | some _ announced =>
    show Changed ([.committed a r, .noted (.record .evictions _)] ++ .noted .forgetSize :: _)
    exact changed_of_forget announced List.mem_cons_self loud

theorem changed_cons {m : Mark τ} {ms : List (Mark τ)} (h : Changed ms) : Changed (m :: ms) := by
  obtain ⟨hsettles, a, r, mem, loud⟩ := h
  exact ⟨fun b => hsettles _, a, r, List.mem_cons_of_mem _ mem, loud⟩

/-- The answer to a count tells of a change if it is not zero. -/
theorem ne_zero_of_changes {n : Nat} (h : ((n : Int) != 0) = true) : n ≠ 0 := by
  rintro rfl
  cases h

section
variable [Instant τ]

theorem changed_of_inserts {w : Written} {value : Value} {left : Nat} {ms : List (Mark τ)}
    (h : Inserts w value left ms (.ok (.lookup .miss))) : Changed ms := by
  generalize hr : (.ok (.lookup .miss) : Except Failure Answer) = r at h
  induction h with
  | unsettled => cases hr
  | inserted left now announced =>
    show Changed ([.read now, .committed (.writeIfAbsent w.key.text (w.row now) now) .inserted,
      .noted (.record .puts 1)] ++ .noted .forgetSize :: _)
    exact changed_of_forget announced (List.mem_cons_of_mem _ List.mem_cons_self) rfl
  | present left now row =>
    cases hv : Payload.decode row.payload.value none (some w.key) with
    | error f => rw [hv] at hr; cases hr
    | ok v =>
      -- What is there is found, so the answer is not a miss.
      rw [hv] at hr
      have hfound : Lookup.miss = .ofDecoded v := Answer.lookup.inj (Except.ok.inj hr)
      unfold Lookup.ofDecoded at hfound
      split at hfound <;> cases hfound
  | neither left now rest ih => exact changed_cons (changed_cons (ih hr))

/-- A call that answers so has changed the table, and all is settled. -/
theorem Accounts.changed {c : Config τ} {call : Call} {t : Trail τ} {a : Answer}
    (h : Accounts c call t (.ok a)) (changes : call.changes a = true) : Changed t.marks := by
  cases call with
  | put key value ttl policy =>
    obtain ⟨w, -, now, told, announced, hmarks, -⟩ := vetted_of_ok h
    rw [hmarks]
    show Changed ([.read now, .committed (.write _) (), .noted (.record .puts 1)] ++
      .noted .forgetSize :: told)
    exact changed_of_forget announced (List.mem_cons_of_mem _ List.mem_cons_self) rfl
  | putIfAbsent key value ttl policy =>
    obtain ⟨w, -, hinserts⟩ := vetted_of_ok h
    obtain rfl : a = .lookup .miss := by
      unfold Call.changes at changes
      split at changes <;> simp_all
    exact changed_of_inserts hinserts
  | putAll entries ttl policy =>
    obtain ⟨w, -, hrest⟩ := vetted_of_ok h
    split at hrest
    · obtain ⟨now, told, announced, hmarks, -⟩ := hrest
      rw [hmarks]
      show Changed ([.read now, .committed (.write _) (), .noted (.record .puts _)] ++
        .noted .forgetSize :: told)
      exact changed_of_forget announced (List.mem_cons_of_mem _ List.mem_cons_self) rfl
    · obtain rfl := Except.ok.inj hrest.2
      cases changes
  | refreshTtl key ttl policy =>
    obtain ⟨w, -, now, b, hmarks, hr⟩ := vetted_of_ok h
    obtain rfl := Except.ok.inj hr
    obtain rfl : b = true := changes
    rw [hmarks]
    show Changed ([.read now, .committed (.extend _ _ _ now) true] ++ .noted .forgetSize :: [])
    exact changed_of_forget .nil (List.mem_cons_of_mem _ List.mem_cons_self) rfl
  | evict key =>
    obtain ⟨k, -, ⟨-, hr⟩ | ⟨told, announced, hmarks, -⟩⟩ := vetted_of_ok h
    · obtain rfl := Except.ok.inj hr
      cases changes
    · rw [hmarks]
      show Changed ([.committed (.remove k.text) true, .noted (.record .evictions 1)] ++
        .noted .forgetSize :: told)
      exact changed_of_forget announced List.mem_cons_self rfl
  | evictAll keys =>
    obtain ⟨ks, -, hrest⟩ := vetted_of_ok h
    split at hrest
    · obtain rfl := Except.ok.inj hrest.2
      cases changes
    · obtain ⟨removed, told, hremoved, hmarks, hr⟩ := hrest
      obtain rfl := Except.ok.inj hr
      rw [hmarks]
      exact changed_of_removed hremoved (ne_zero_of_changes changes) rfl
  | evictByPattern pattern =>
    obtain ⟨g, -, removed, told, hremoved, hmarks, hr⟩ := vetted_of_ok h
    obtain rfl := Except.ok.inj hr
    rw [hmarks]
    exact changed_of_removed hremoved (ne_zero_of_changes changes) rfl
  | clear =>
    obtain ⟨n, told, announced, hmarks, -⟩ := h
    rw [hmarks]
    exact changed_of_forget announced List.mem_cons_self rfl
  | cleanupExpired =>
    obtain ⟨now, n, hr, hmarks⟩ := h
    obtain rfl := Except.ok.inj hr
    have hn : 0 < n := Nat.pos_of_ne_zero (ne_zero_of_changes changes)
    rw [hmarks, if_pos hn]
    show Changed ([.read now, .committed (.removeExpired now) n] ++ .noted .forgetSize :: [])
    exact changed_of_forget .nil (List.mem_cons_of_mem _ List.mem_cons_self) rfl
  | get | containsKey | getAll | getKeys | getAllKeys | getRemainingTtl | getTtlPolicy | size =>
    cases changes

end

end Call

namespace Outlet

variable [OrderedInstant τ] [Delay τ] {c : Config τ} {s₁ s s' : Outlet τ} {i j : Nat}
  {u v : Client τ}

theorem ClientSound.concludes (h : s.ClientSound c i v) {r : Except Failure Answer}
    (returned : v.result? = some r) : v.call.Concludes c v.trail r := by
  have htraces := h.traces
  rw [Client.rest_of_result? returned] at htraces
  exact htraces

theorem ClientSound.accounts (h : s.ClientSound c i v) {a : Answer}
    (returned : v.result? = some (.ok a)) : v.call.Accounts c v.trail (.ok a) := by
  rcases h.concludes returned with ⟨f, hf, -⟩ | haccounts
  · cases hf
  · exact haccounts

/-- What a call has committed that tells of a change is settled. -/
theorem Sound.changes_settled (h : Sound c s) (atI : s.clients[i]? = some v) {a : Answer}
    (returned : v.result? = some (.ok a)) (changes : v.call.changes a = true) :
    (∃ (q : Nat) (k : Commit τ), s.commits[q]? = some k ∧ k.caller = i ∧
      k.transaction.isQuiet k.reply = false) ∧
    ∀ (q : Nat) (k : Commit τ), s.commits[q]? = some k → k.caller = i → q < s.settled := by
  have hv := h.clients i v atI
  obtain ⟨hsettles, b, r, mem, loud⟩ := (hv.accounts returned).changed changes
  refine ⟨?_, hv.settled (hsettles false)⟩
  obtain ⟨q, k, -, hk, own, hmark⟩ := hv.marks _ mem
  refine ⟨q, k, hk, own, ?_⟩
  obtain ⟨i, clock, found, b', r'⟩ := k
  cases hmark
  exact loud

/-! ## From one state to a later one -/

/-- What is so in every state that follows a state. -/
structure Since (s₁ s : Outlet τ) : Prop where
  settled : s₁.settled ≤ s.settled
  commits : s₁.commits <+: s.commits
  clients : s₁.clients.length ≤ s.clients.length
  begun (j : Nat) (v : Client τ) (atJ : s.clients[j]? = some v)
    (later : s₁.clients.length ≤ j) : s₁.settled ≤ v.since
  /-- A call that is over is over, and commits nothing more. -/
  finished (i : Nat) (v : Client τ) (atI : s₁.clients[i]? = some v) (r : Except Failure Answer)
    (returned : v.result? = some r) : s.clients[i]? = some v ∧
      ∀ (q : Nat) (k : Commit τ), s.commits[q]? = some k → k.caller = i → s₁.commits[q]? = some k

omit [OrderedInstant τ] [Delay τ] in
theorem Since.refl (s : Outlet τ) : Since s s where
  settled := le_rfl
  commits := List.prefix_refl _
  clients := le_rfl
  begun j v atJ later := by
    rw [List.getElem?_eq_none later] at atJ
    cases atJ
  finished i v atI r returned := ⟨atI, fun q k hk own => hk⟩

omit [Delay τ] in
theorem Since.goes_on (h : Since s₁ s) (hlater : Later s s') (hs : s.settled ≤ s.commits.length)
    (atI : s.clients[i]? = some v) {e : Effect τ}
    {next : e.Reply → Program τ (Except Failure Answer)} (asks : v.rest = .ask e next)
    (hclients : s'.clients = s.clients.set i u) (hsince : u.since = v.since)
    (hcommits : ∀ (q : Nat) (k : Commit τ), s'.commits[q]? = some k → k.caller ≠ i →
      s.commits[q]? = some k) : Since s₁ s' where
  settled := h.settled.trans (hlater.settled_le hs)
  commits := h.commits.trans hlater.commits
  clients := by rw [hclients, List.length_set]; exact h.clients
  begun j w atJ later := by
    rw [hclients] at atJ
    rcases getElem?_set_cases atJ with ⟨rfl, rfl⟩ | ⟨-, h'⟩
    · exact hsince ▸ h.begun j v atI later
    · exact h.begun j w h' later
  finished j w atJ r returned := by
    obtain ⟨hstill, hown⟩ := h.finished j w atJ r returned
    have hne : i ≠ j := by
      rintro rfl
      obtain rfl := Option.some.inj (atI.symm.trans hstill)
      cases asks.symm.trans (Client.rest_of_result? returned)
    refine ⟨by rwa [hclients, List.getElem?_set_ne hne], fun q k hk own => ?_⟩
    exact hown q k (hcommits q k hk (own ▸ hne.symm)) own

theorem Since.step (h : Since s₁ s) (sound : Sound c s) (hstep : Step c s s') : Since s₁ s' := by
  have hlater := hstep.later
  cases hstep with
  | tick | others => exact ⟨h.settled, h.commits, h.clients, h.begun, h.finished⟩
  | call call =>
    refine ⟨h.settled, h.commits, ?_, fun j v atJ later => ?_, fun i v atI r returned => ?_⟩
    · exact h.clients.trans (by simp)
    · rcases getElem?_append_cases atJ with h' | ⟨-, rfl⟩
      · exact h.begun j v h' later
      · exact h.settled
    · obtain ⟨hstill, hown⟩ := h.finished i v atI r returned
      exact ⟨getElem?_of_initial (List.prefix_append ..) hstill, hown⟩
  | commit i v a next r t atI asks done =>
    refine h.goes_on hlater sound.settled atI asks rfl rfl fun q k hk hne => ?_
    rcases getElem?_append_cases hk with hk | ⟨-, rfl⟩
    · exact hk
    · exact absurd rfl hne
  | consult i v next atI asks =>
    exact h.goes_on hlater sound.settled atI asks rfl rfl fun q k hk _ => hk
  | note i v b next atI asks =>
    cases b <;> exact h.goes_on hlater sound.settled atI asks rfl rfl fun q k hk _ => hk
  | answer i v e next r atI asks =>
    exact h.goes_on hlater sound.settled atI asks rfl rfl fun q k hk _ => hk

theorem Since.steps (sound : Sound c s₁) (hsteps : Steps c s₁ s) : Since s₁ s := by
  induction hsteps with
  | refl => exact .refl s₁
  | tail hsteps hstep ih => exact ih.step (sound.steps hsteps) hstep

/-! ## Sizes -/

/-- What the size is that a call returned: a count that was taken when all that was settled at the
beginning of the call had been committed, by the call itself or less than a window ago. -/
theorem Sound.size_counted (h : Sound c s) (atJ : s.clients[j]? = some v) (sizing : v.call = .size)
    {n : Nat} (returned : v.result? = some (.ok (.count n))) :
    ∃ (q : Nat) (k : Commit τ) (at' now : τ), v.since ≤ q ∧ s.commits[q]? = some k ∧
      k.mark = .committed (.countLive at') n ∧ v.trail.marks.head? = some (.read now) ∧
      (k.caller = j ∨ Instant.minus now at' < c.sizeWindow ∧ at' ≤ k.clock) := by
  have hv := h.clients j v atJ
  have haccounts := hv.accounts returned
  rw [sizing] at haccounts
  cases haccounts with
  | @recalled now at' m n counted fresh marks =>
    have hmem : Mark.recalled m ∈ v.trail.marks := by simp [marks]
    obtain ⟨q, k, hq, hk, hmark, hclock⟩ := (hv.marks _ hmem).2 n at' counted
    refine ⟨q, k, at', now, hq, hk, hmark, by rw [marks]; rfl, .inr ?_⟩
    exact ⟨(OrderedInstant.before_iff _ _).1 fresh, hclock⟩
  | @counted now m₀ m n stale marks =>
    have hmem : Mark.committed (.countLive now) n ∈ v.trail.marks := by simp [marks]
    obtain ⟨q, k, hq, hk, own, hmark⟩ := hv.marks _ hmem
    exact ⟨q, k, now, now, hq, hk, hmark, by rw [marks]; rfl, .inl own⟩

omit [Delay τ] in
/-- A count is the number of the rows that are live in the table that it finds. -/
theorem counted_eq {k : Commit τ} {at' : τ} {n : Nat} {t : Table τ}
    (done : k.transaction.commit k.found = .ok (k.reply, t))
    (hmark : k.mark = .committed (.countLive at') n) :
    n = (k.found.select fun _ row => (Condition.live row at').holds).length := by
  obtain ⟨i, clock, found, a, r⟩ := k
  cases hmark
  exact (Except.ok.inj (Transaction.reply_reading rfl done).1).symm

/-- The size that a call returns is the number of the rows that were live, at some reading, in the
table that one commit found.  Every change that the store had made when the call began was committed
before that; and the commit was made by the call itself, or at a reading less than a window before
its own. -/
theorem size_reads_own_writes {t : Table τ} (h : Reachable c t s) (atJ : s.clients[j]? = some v)
    (sizing : v.call = .size) {n : Nat} (returned : v.result? = some (.ok (.count n))) :
    ∃ (q : Nat) (k : Commit τ) (at' now : τ), s.commits[q]? = some k ∧
      k.mark = .committed (.countLive at') n ∧
      n = (k.found.select fun _ row => (Condition.live row at').holds).length ∧
      v.trail.marks.head? = some (.read now) ∧
      (k.caller = j ∨ Instant.minus now at' < c.sizeWindow ∧ at' ≤ k.clock) ∧
      ∀ s₁, Reachable c t s₁ → Steps c s₁ s → s₁.clients.length ≤ j →
        ∀ i u a, s₁.clients[i]? = some u → u.result? = some (.ok a) → u.call.changes a = true →
          (∃ (p : Nat) (d : Commit τ), p < q ∧ s.commits[p]? = some d ∧ d.caller = i ∧
            d.transaction.isQuiet d.reply = false) ∧
          ∀ (p : Nat) (d : Commit τ), s.commits[p]? = some d → d.caller = i → p < q := by
  obtain ⟨q, k, at', now, hq, hk, hmark, hread, hrecent⟩ := h.sound.size_counted atJ sizing returned
  obtain ⟨_, done⟩ := h.sound.done k (List.mem_of_getElem? hk)
  refine ⟨q, k, at', now, hk, hmark, counted_eq done hmark, hread, hrecent, ?_⟩
  intro s₁ h₁ hsteps began i u a atI ended changes
  have hsince := Since.steps h₁.sound hsteps
  obtain ⟨⟨p, d, hd, own, loud⟩, hsettled⟩ := h₁.sound.changes_settled atI ended changes
  have hle : s₁.settled ≤ q := (hsince.begun j v atJ began).trans hq
  refine ⟨⟨p, d, (hsettled p d hd own).trans_le hle, getElem?_of_initial hsince.commits hd, own,
      loud⟩,
    fun p' d' hd' own' => ?_⟩
  have hearlier := (hsince.finished i u atI _ ended).2 p' d' hd' own'
  exact (hsettled p' d' hearlier own').trans_le hle

/-! ## A run -/

/-- What is decided of a run. -/
inductive Turn (τ : Type) where
  /-- The clock advances; it never goes back. -/
  | tick (now : τ)
  | others (t : Table τ)
  | call (call : Call)
  /-- A client goes on by so many effects, if its call has so many. -/
  | act (client steps : Nat)

/-- A client goes on by one effect, where nothing fails that need not. -/
def act (i : Nat) (s : Outlet τ) : Outlet τ :=
  match s.clients[i]? with
  | none => s
  | some v =>
    match v.rest with
    | .done _ => s
    | .ask .recallSize next => s.goOn i v .recallSize s.memo (next s.memo)
    | .ask (.bookkeep b) next => (s.goOn i v (.bookkeep b) () (next ())).note b
    | .ask e next =>
      let (r, t) := e.answer s.clock s.table
      { s.goOn i v e r (next r) with
        table := t
        commits := s.commits ++ e.record i s.clock s.table r }

/-- A client goes on by so many effects. -/
def acts (i : Nat) : Nat → Outlet τ → Outlet τ
  | 0, s => s
  | n + 1, s => acts i n (act i s)

/-- Takes turns. -/
def play (c : Config τ) : List (Turn τ) → Outlet τ → Outlet τ
  | [], s => s
  | .tick now :: rest, s => play c rest { s with clock := OrderedInstant.latest s.clock now }
  | .others t :: rest, s => play c rest { s with table := t }
  | .call call :: rest, s =>
    play c rest { s with clients := s.clients ++ [.new c call s.settled] }
  | .act i n :: rest, s => play c rest (acts i n s)

theorem act_steps (c : Config τ) (i : Nat) (s : Outlet τ) : Steps c s (act i s) := by
  unfold act
  split
  · exact .refl
  · next v atI =>
    split
    · exact .refl
    · next next asks => exact .single (.consult s i v next atI asks)
    · next b next asks => exact .single (.note s i v b next atI asks)
    · next e next hrecall hnote asks =>
      have other : e ≠ .recallSize ∧ ∀ b, e ≠ .bookkeep b := by
        refine ⟨?_, fun b => ?_⟩
        · rintro rfl
          exact hrecall next rfl .rfl
        · rintro rfl
          exact hnote b next rfl .rfl
      cases e with
      | attempt a =>
        cases hc : a.commit s.table with
        | ok p =>
          rw [Effect.answer_ok hc]
          exact .single (.commit s i v a next p.1 p.2 atI asks hc)
        | error f =>
          rw [Effect.answer_error hc]
          simp only [Effect.record, List.append_nil]
          exact .single (.answer s i v (.attempt a) next (.error f) atI asks ⟨f, rfl⟩ other)
      | readClock =>
        simp only [Effect.record, List.append_nil]
        exact .single (.answer s i v .readClock next (.ok s.clock) atI asks rfl other)
      | engine step =>
        simp only [Effect.record, List.append_nil]
        cases step <;> exact .single (.answer s i v (.engine _) next _ atI asks trivial other)
      | recallSize => exact absurd rfl other.1
      | bookkeep b => exact absurd rfl (other.2 b)
      | _ =>
        simp only [Effect.record, List.append_nil]
        exact .single (.answer s i v _ next _ atI asks trivial other)

theorem acts_steps (c : Config τ) (i n : Nat) (s : Outlet τ) : Steps c s (acts i n s) := by
  induction n generalizing s with
  | zero => exact .refl
  | succ n ih => exact (act_steps c i s).trans (ih (act i s))

theorem play_steps (c : Config τ) (turns : List (Turn τ)) (s : Outlet τ) :
    Steps c s (play c turns s) := by
  induction turns generalizing s with
  | nil => exact .refl
  | cons turn rest ih =>
    cases turn with
    | tick now => exact .head (.tick s _ (OrderedInstant.le_latest _ _)) (ih _)
    | others t => exact .head (.others s t) (ih _)
    | call call => exact .head (.call s call) (ih _)
    | act i n => exact (acts_steps c i n s).trans (ih _)

/-- An entry is put while a size is being counted: the count, which misses the entry, is not
kept. -/
def overtaken : Outlet Int :=
  play .plain [
    .call (.put (.str "a") (.int 1) .none Policy.absolute.toValue), .act 0 10,
    .call .size, .act 1 5,
    .call (.put (.str "b") (.int 2) .none Policy.absolute.toValue), .act 2 10,
    .act 1 5] (start .empty 0)

/-- A later size is counted anew, and is returned again after others have cleared the table. -/
def lagging : Outlet Int :=
  play .plain [.call .size, .act 3 10, .others .empty, .tick 4, .call .size, .act 4 10] overtaken

set_option maxRecDepth 1000 in
theorem size_reads_own_writes_lagging :
    lagging.table.size = 0 ∧ ∃ (v : Client Int) (q p : Nat) (k d : Commit Int) (at' : Int),
      lagging.clients[4]? = some v ∧ v.result? = some (.ok (.count 2)) ∧
      lagging.commits[q]? = some k ∧
      2 = (k.found.select fun _ row => (Condition.live row at').holds).length ∧
      lagging.commits[p]? = some d ∧ d.caller = 2 ∧ p < q := by
  obtain ⟨v, hv⟩ : ∃ v, lagging.clients[4]? = some v :=
    Option.isSome_iff_exists.1 (by decide +kernel)
  obtain ⟨u, hu⟩ : ∃ u, overtaken.clients[2]? = some u :=
    Option.isSome_iff_exists.1 (by decide +kernel)
  have hsize : (lagging.clients[4]?).map (fun v => (v.call, v.result?)) =
      some (.size, some (.ok (.count 2))) := by rfl
  have hput : (overtaken.clients[2]?).map (fun u => (u.call, u.result?)) =
      some (.put (.str "b") (.int 2) .none Policy.absolute.toValue, some (.ok .nothing)) := by rfl
  rw [hv, Option.map_some, Option.some.injEq, Prod.mk.injEq] at hsize
  rw [hu, Option.map_some, Option.some.injEq, Prod.mk.injEq] at hput
  have hbefore : Reachable .plain .empty overtaken := ⟨0, play_steps _ _ _⟩
  have hsteps : Steps .plain overtaken lagging := play_steps _ _ _
  have hreach : Reachable .plain .empty lagging := ⟨0, (play_steps _ _ _).trans hsteps⟩
  obtain ⟨q, k, at', now, hk, -, hcount, -, -, hown⟩ :=
    size_reads_own_writes hreach hv hsize.1 hsize.2
  obtain ⟨⟨p, d, hp, hd, own, -⟩, -⟩ :=
    hown overtaken hbefore hsteps (by decide +kernel) 2 u _ hu hput.2 (by rw [hput.1]; rfl)
  exact ⟨by decide +kernel, v, q, p, k, d, at', hv, hsize.2, hk, hcount, hd, own, hp⟩

end Outlet

end ExpiringStore
