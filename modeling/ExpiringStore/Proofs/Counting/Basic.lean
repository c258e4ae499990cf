import ExpiringStore.Proofs.Desk.Basic
import ExpiringStore.Proofs.Lists

/-!
# Outlets

One of the stores that share a table, with any number of calls under way.  Others may change the
table at any time.  At each step the clock advances, another call begins, or one of the calls is
answered the effect that it asks for.  What the store remembers of its size is answered as it is
kept; all else that is not the table is answered in any way.

The size is forgotten after each change that the store makes.  At that moment everything that was
committed so far is settled: what is counted later has seen it.  A size that is kept was counted
after the size was last forgotten, since it is kept only under the generation that was recalled
before it was counted.

    settled s                          how many commits there were when the size was last forgotten
    memo of s is a count n             a commit counted n, and it is not among the settled ones
    Sound c s                          the invariant of an outlet                (Reachable.sound)
-/

namespace ExpiringStore

/-- A call under way at an outlet: its trail, and what remains of its program. -/
structure Client (τ : Type) where
  call : Call
  /-- How many commits were settled when the call began. -/
  since : Nat
  trail : Trail τ
  rest : Program τ (Except Failure Answer)

/-- One of the stores that share a table, with its clock. -/
structure Outlet (τ : Type) where
  clock : τ
  table : Table τ
  memo : SizeMemo τ
  clients : List (Client τ)
  /-- What the clients have committed, in the order in which it took effect. -/
  commits : List (Commit τ)
  /-- How many commits there were when the size was last forgotten. -/
  settled : Nat

namespace Client

variable {τ : Type}

/-- A call that begins. -/
def new [Instant τ] [Delay τ] (c : Config τ) (call : Call) (since : Nat) : Client τ :=
  ⟨call, since, {}, ExceptT.run (call.program c)⟩

def answered (v : Client τ) (e : Effect τ) (r : e.Reply)
    (rest : Program τ (Except Failure Answer)) : Client τ :=
  { v with trail := v.trail.after e r, rest }

/-- What a call returned, if it is over. -/
def result? (v : Client τ) : Option (Except Failure Answer) :=
  match v.rest with
  | .done r => some r
  | .ask _ _ => none

theorem rest_of_result? {v : Client τ} {r : Except Failure Answer} (h : v.result? = some r) :
    v.rest = .done r := by
  unfold result? at h
  split at h
  · next hrest => rw [hrest, Option.some.inj h]
  · cases h

end Client

def Commit.mark {τ : Type} (k : Commit τ) : Mark τ := .committed k.transaction k.reply

/-- Has everything that was committed been followed by forgetting the size? -/
def Mark.settles {τ : Type} (settled : Bool) : Mark τ → Bool
  | .committed _ _ => false
  | .noted .forgetSize => true
  | _ => settled

/-- The same after all marks. -/
def AllSettled {τ : Type} (ms : List (Mark τ)) : Bool := ms.foldl Mark.settles false

namespace Outlet

variable {τ : Type}

/-- Nobody has called yet, and nothing has been counted. -/
def start (t : Table τ) (clock : τ) : Outlet τ := ⟨clock, t, {}, [], [], 0⟩

/-- A client at an outlet goes on. -/
def goOn (s : Outlet τ) (i : Nat) (v : Client τ) (e : Effect τ) (r : e.Reply)
    (rest : Program τ (Except Failure Answer)) : Outlet τ :=
  { s with clients := s.clients.set i (v.answered e r rest) }

/-- A client makes an entry in the books of the store. -/
def note (s : Outlet τ) : Bookkeeping τ → Outlet τ
  | .forgetSize => { s with memo := s.memo.after .forgetSize, settled := s.commits.length }
  | b => { s with memo := s.memo.after b }

variable [OrderedInstant τ]

/-! ## Steps -/

section
variable [Delay τ]

/-- One step at an outlet. -/
inductive Step (c : Config τ) : Outlet τ → Outlet τ → Prop
  | tick (s : Outlet τ) (now : τ) (later : s.clock ≤ now) : Step c s { s with clock := now }
  /-- Others change the table. -/
  | others (s : Outlet τ) (t : Table τ) : Step c s { s with table := t }
  | call (s : Outlet τ) (call : Call) :
      Step c s { s with clients := s.clients ++ [.new c call s.settled] }
  | commit (s : Outlet τ) (i : Nat) (v : Client τ) (a : Transaction τ)
      (next : (Effect.attempt a).Reply → Program τ (Except Failure Answer)) (r : a.Reply)
      (t : Table τ) (atI : s.clients[i]? = some v) (asks : v.rest = .ask (.attempt a) next)
      (done : a.commit s.table = .ok (r, t)) :
      Step c s { s.goOn i v (.attempt a) (.ok r) (next (.ok r)) with
        table := t
        commits := s.commits ++ [⟨i, s.clock, s.table, a, r⟩] }
  | consult (s : Outlet τ) (i : Nat) (v : Client τ)
      (next : SizeMemo τ → Program τ (Except Failure Answer))
      (atI : s.clients[i]? = some v) (asks : v.rest = .ask .recallSize next) :
      Step c s (s.goOn i v .recallSize s.memo (next s.memo))
  | note (s : Outlet τ) (i : Nat) (v : Client τ) (b : Bookkeeping τ)
      (next : Unit → Program τ (Except Failure Answer))
      (atI : s.clients[i]? = some v) (asks : v.rest = .ask (.bookkeep b) next) :
      Step c s ((s.goOn i v (.bookkeep b) () (next ())).note b)
  | answer (s : Outlet τ) (i : Nat) (v : Client τ) (e : Effect τ)
      (next : e.Reply → Program τ (Except Failure Answer)) (r : e.Reply)
      (atI : s.clients[i]? = some v) (asks : v.rest = .ask e next)
      (possible : e.Answers s.clock r) (other : e ≠ .recallSize ∧ ∀ b, e ≠ .bookkeep b) :
      Step c s (s.goOn i v e r (next r))

abbrev Steps (c : Config τ) : Outlet τ → Outlet τ → Prop := Relation.ReflTransGen (Step c)

/-- The states that are reached from a table before any call. -/
def Reachable (c : Config τ) (t : Table τ) (s : Outlet τ) : Prop :=
  ∃ clock, Steps c (start t clock) s

end

/-! ## The invariant -/

/-- Among the commits from a position on there is one that counted so many rows at a reading. -/
def Counted (commits : List (Commit τ)) (first : Nat) (at' : τ) (n : Nat) : Prop :=
  ∃ (q : Nat) (k : Commit τ), first ≤ q ∧ commits[q]? = some k ∧
    k.mark = .committed (.countLive at') n ∧ at' ≤ k.clock

/-- What is true of a mark of the client of a number, whose call began when so many commits were
settled. -/
def MarkSound (s : Outlet τ) (i since : Nat) : Mark τ → Prop
  | .read now => now ≤ s.clock
  | .committed a r => ∃ (q : Nat) (k : Commit τ), since ≤ q ∧ s.commits[q]? = some k ∧
      k.caller = i ∧ k.mark = .committed a r
  | .recalled m => m.generation ≤ s.memo.generation ∧
      ∀ n at', m.counted = some (n, at') → Counted s.commits since at' n
  | _ => True

/-- What is true of a client of a number. -/
structure ClientSound [Delay τ] (c : Config τ) (s : Outlet τ) (i : Nat) (v : Client τ) : Prop where
  traces : v.rest.Traces Call.Books (v.call.Concludes c) v.trail
  marks (m : Mark τ) (mem : m ∈ v.trail.marks) : s.MarkSound i v.since m
  since : v.since ≤ s.settled
  settled (h : AllSettled v.trail.marks = true) (q : Nat) (k : Commit τ)
    (hk : s.commits[q]? = some k) (own : k.caller = i) : q < s.settled
  /-- A count that may still be kept is not settled. -/
  counted (now : τ) (m₀ m : SizeMemo τ) (n : Nat)
    (h : v.trail.marks = [.read now, .recalled m₀, .recalled m, .committed (.countLive now) n])
    (current : m.generation = s.memo.generation) : Counted s.commits s.settled now n

/-- What is true of every state that is reached. -/
structure Sound [Delay τ] (c : Config τ) (s : Outlet τ) : Prop where
  clients (i : Nat) (v : Client τ) (atI : s.clients[i]? = some v) : s.ClientSound c i v
  settled : s.settled ≤ s.commits.length
  /-- The size that is kept is not settled. -/
  memo (n : Nat) (at' : τ) (h : s.memo.counted = some (n, at')) :
    Counted s.commits s.settled at' n
  done (k : Commit τ) (mem : k ∈ s.commits) :
    ∃ t, k.transaction.commit k.found = .ok (k.reply, t)

theorem sound_start [Delay τ] (c : Config τ) (t : Table τ) (clock : τ) :
    Sound c (start t clock) where
  clients i v atI := by simp [start] at atI
  settled := le_rfl
  memo n at' h := by cases h
  done k mem := by simp [start] at mem

/-! ## What one step changes for everyone -/

/-- What one step may change for those who do not take it. -/
structure Later (s s' : Outlet τ) : Prop where
  clock : s.clock ≤ s'.clock
  commits : s.commits <+: s'.commits
  /-- The size was not forgotten, or everything is settled. -/
  generation : s'.memo.generation = s.memo.generation ∧ s'.settled = s.settled ∨
    s.memo.generation < s'.memo.generation ∧ s'.settled = s'.commits.length

section
variable {s s' : Outlet τ} {i since : Nat}

theorem Counted.mono {commits commits' : List (Commit τ)} {first first' : Nat} {at' : τ} {n : Nat}
    (h : Counted commits first at' n) (hinitial : commits <+: commits') (hle : first' ≤ first) :
    Counted commits' first' at' n := by
  obtain ⟨q, k, hq, hk, hcounts⟩ := h
  exact ⟨q, k, hle.trans hq, getElem?_of_initial hinitial hk, hcounts⟩

theorem Later.same (hclock : s.clock ≤ s'.clock) (hcommits : s.commits <+: s'.commits)
    (hgeneration : s'.memo.generation = s.memo.generation) (hsettled : s'.settled = s.settled) :
    Later s s' := ⟨hclock, hcommits, .inl ⟨hgeneration, hsettled⟩⟩

theorem Later.settled_le (hlater : Later s s') (hs : s.settled ≤ s.commits.length) :
    s.settled ≤ s'.settled := by
  rcases hlater.generation with ⟨-, heq⟩ | ⟨-, heq⟩
  · exact heq.ge
  · exact heq ▸ hs.trans hlater.commits.length_le

theorem Later.settled_le_length (hlater : Later s s') (hs : s.settled ≤ s.commits.length) :
    s'.settled ≤ s'.commits.length := by
  rcases hlater.generation with ⟨-, heq⟩ | ⟨-, heq⟩
  · exact heq ▸ hs.trans hlater.commits.length_le
  · exact heq.le

theorem MarkSound.later {m : Mark τ} (h : s.MarkSound i since m) (hlater : Later s s') :
    s'.MarkSound i since m := by
  cases m with
  | read now => exact h.trans hlater.clock
  | committed a r =>
    obtain ⟨q, k, hq, hk, own⟩ := h
    exact ⟨q, k, hq, getElem?_of_initial hlater.commits hk, own⟩
  | recalled m =>
    have hle : s.memo.generation ≤ s'.memo.generation := by
      rcases hlater.generation with ⟨heq, -⟩ | ⟨hlt, -⟩
      · exact heq.ge
      · exact hlt.le
    exact ⟨h.1.trans hle, fun n at' hm => (h.2 n at' hm).mono hlater.commits le_rfl⟩
  | noted | listed | told => trivial

end

variable [Delay τ] {c : Config τ} {s s' : Outlet τ} {i : Nat} {u v : Client τ}

/-- A client that does not take a step stays sound, if what is committed is not its own. -/
theorem ClientSound.later (h : s.ClientSound c i v) (hs : s.settled ≤ s.commits.length)
    (hlater : Later s s')
    (hothers : ∀ (q : Nat) (k : Commit τ), s'.commits[q]? = some k → k.caller = i →
      s.commits[q]? = some k) : s'.ClientSound c i v where
  traces := h.traces
  marks m mem := (h.marks m mem).later hlater
  since := h.since.trans (hlater.settled_le hs)
  settled hall q k hk own :=
    (h.settled hall q k (hothers q k hk own) own).trans_le (hlater.settled_le hs)
  counted now m₀ m n hmarks current := by
    rcases hlater.generation with ⟨hgen, heq⟩ | ⟨hlt, -⟩
    · rw [heq]
      exact (h.counted now m₀ m n hmarks (current.trans hgen)).mono hlater.commits le_rfl
    · -- The size has been forgotten since it was recalled.
      have hmem : Mark.recalled m ∈ v.trail.marks := by simp [hmarks]
      have hle : m.generation ≤ s.memo.generation := (h.marks _ hmem).1
      omega

/-- A step of one client, as the others see it. -/
theorem Sound.clients_set (h : Sound c s) (hlater : Later s s')
    (hclients : s'.clients = s.clients.set i u)
    (hothers : ∀ (q : Nat) (k : Commit τ), s'.commits[q]? = some k → k.caller ≠ i →
      s.commits[q]? = some k) (hown : s'.ClientSound c i u) (j : Nat) (v : Client τ)
    (atJ : s'.clients[j]? = some v) : s'.ClientSound c j v := by
  rw [hclients] at atJ
  rcases getElem?_set_cases atJ with ⟨rfl, rfl⟩ | ⟨hj, h'⟩
  · exact hown
  · refine (h.clients j v h').later h.settled hlater fun q k hk own => ?_
    exact hothers q k hk (own ▸ hj)

/-! ## What a client does -/

@[simp] theorem allSettled_append {τ : Type} (ms : List (Mark τ)) (m : Mark τ) :
    AllSettled (ms ++ [m]) = m.settles (AllSettled ms) := by
  simp [AllSettled]

omit [OrderedInstant τ] [Delay τ] in
/-- The last mark of a count is a commit. -/
theorem last_of_counted {ms : List (Mark τ)} {m : Mark τ} {now : τ} {m₀ m₁ : SizeMemo τ} {n : Nat}
    (h : ms ++ [m] = [.read now, .recalled m₀, .recalled m₁, .committed (.countLive now) n]) :
    ms = [.read now, .recalled m₀, .recalled m₁] ∧ m = .committed (.countLive now) n := by
  have h' : ms ++ [m] =
      [.read now, .recalled m₀, .recalled m₁] ++ [.committed (.countLive now) n] := h
  obtain ⟨hms, hm⟩ := List.append_inj' h' rfl
  exact ⟨hms, List.singleton_inj.1 hm⟩

theorem ClientSound.aside (h : s.ClientSound c i v)
    (traces : u.rest.Traces Call.Books (u.call.Concludes c) u.trail)
    (hmarks : u.trail.marks = v.trail.marks) (hsince : u.since = v.since) :
    s.ClientSound c i u where
  traces := traces
  marks m mem := hsince ▸ h.marks m (hmarks ▸ mem)
  since := hsince ▸ h.since
  settled hall := h.settled (hmarks ▸ hall)
  counted now m₀ m n hcount := h.counted now m₀ m n (hmarks ▸ hcount)

/-- A client that leaves a sound mark stays sound, if the mark is neither of a commit nor of
forgetting the size. -/
theorem ClientSound.mark (h : s.ClientSound c i v) {m : Mark τ}
    (traces : u.rest.Traces Call.Books (u.call.Concludes c) u.trail)
    (hmarks : u.trail.marks = v.trail.marks ++ [m]) (hsince : u.since = v.since)
    (hm : s.MarkSound i v.since m) (hsettles : ∀ b, m.settles b = b) : s.ClientSound c i u where
  traces := traces
  marks m' mem := by
    rw [hmarks, List.mem_append, List.mem_singleton] at mem
    rw [hsince]
    rcases mem with mem | rfl
    · exact h.marks m' mem
    · exact hm
  since := hsince ▸ h.since
  settled hall := by
    rw [hmarks, allSettled_append, hsettles] at hall
    exact h.settled hall
  counted now m₀ m₁ n hcount := by
    rw [hmarks] at hcount
    obtain ⟨-, rfl⟩ := last_of_counted hcount
    cases hsettles true

/-- A client that forgets the size has settled everything. -/
theorem ClientSound.forget (h : s.ClientSound c i v)
    (traces : u.rest.Traces Call.Books (u.call.Concludes c) u.trail)
    (hmarks : u.trail.marks = v.trail.marks ++ [.noted .forgetSize]) (hsince : u.since = v.since)
    (hsettled : s.settled = s.commits.length) : s.ClientSound c i u where
  traces := traces
  marks m' mem := by
    rw [hmarks, List.mem_append, List.mem_singleton] at mem
    rw [hsince]
    rcases mem with mem | rfl
    · exact h.marks m' mem
    · trivial
  since := hsince ▸ h.since
  settled _ q k hk _ := hsettled ▸ (List.getElem?_eq_some_iff.1 hk).1
  counted now m₀ m₁ n hcount := by
    rw [hmarks] at hcount
    cases (last_of_counted hcount).2

/-- A client that commits: what it has committed is not settled. -/
theorem ClientSound.commit (h : s.ClientSound c i v) (hs : s.settled ≤ s.commits.length)
    (hlater : Later s s') {k : Commit τ} (hcommits : s'.commits = s.commits ++ [k])
    (hsame : s'.settled = s.settled) (hclock : s.clock = k.clock) (own : k.caller = i)
    (traces : u.rest.Traces Call.Books (u.call.Concludes c) u.trail)
    (hmarks : u.trail.marks = v.trail.marks ++ [k.mark]) (hsince : u.since = v.since) :
    s'.ClientSound c i u := by
  have hlast : s'.commits[s.commits.length]? = some k := by simp [hcommits]
  constructor
  · exact traces
  · intro m mem
    rw [hmarks, List.mem_append, List.mem_singleton] at mem
    rw [hsince]
    rcases mem with mem | rfl
    · exact (h.marks m mem).later hlater
    · exact ⟨_, k, h.since.trans hs, hlast, own, rfl⟩
  · exact hsince ▸ hsame ▸ h.since
  · intro hall
    rw [hmarks, allSettled_append] at hall
    cases hall
  · intro now m₀ m n hcount _
    rw [hmarks] at hcount
    obtain ⟨hbefore, hmark⟩ := last_of_counted hcount
    have hread : Mark.read now ∈ v.trail.marks := by simp [hbefore]
    have hle : now ≤ s.clock := h.marks _ hread
    exact ⟨_, k, hsame ▸ hs, hlast, hmark, hclock ▸ hle⟩

omit [Delay τ] in
/-- An answer that is neither recalled nor noted leaves at most a mark that settles nothing. -/
theorem marks_answer {t : Trail τ} {e : Effect τ} {r : e.Reply} {clock : τ}
    (possible : e.Answers clock r) (other : e ≠ .recallSize ∧ ∀ b, e ≠ .bookkeep b) :
    (t.after e r).marks = t.marks ∨ ∃ m, (t.after e r).marks = t.marks ++ [m] ∧
      (∀ b, m.settles b = b) ∧
        ∀ s : Outlet τ, s.clock = clock → ∀ i since, s.MarkSound i since m := by
  cases e with
  | readClock =>
    obtain rfl : r = .ok clock := possible
    exact .inr ⟨.read clock, rfl, fun b => rfl, fun s hs i since => hs.ge⟩
  | attempt a =>
    obtain ⟨f, rfl⟩ := possible
    exact .inl rfl
  | recallSize => exact absurd rfl other.1
  | bookkeep b => exact absurd rfl (other.2 b)
  | listeners => exact .inr ⟨.listed r, rfl, fun b => rfl, fun s _ i since => trivial⟩
  | notify l e => exact .inr ⟨.told l e, rfl, fun b => rfl, fun s _ i since => trivial⟩
  | engine step =>
    refine .inl ?_
    show (if step.succeeded r then t.aside else t.trouble _).marks = t.marks
    split <;> rfl
  | pause | log | gate | sweeper | noteRunning => exact .inl rfl

theorem ClientSound.goes_on (h : s.ClientSound c i v) {e : Effect τ}
    {next : e.Reply → Program τ (Except Failure Answer)} (asks : v.rest = .ask e next) :
    e.InOrder Call.Books v.trail.marks ∧ ∀ r,
      (v.answered e r (next r)).rest.Traces Call.Books
        ((v.answered e r (next r)).call.Concludes c) (v.answered e r (next r)).trail := by
  have htraces := h.traces
  rw [asks] at htraces
  exact htraces

theorem Step.later (hstep : Step c s s') : Later s s' := by
  cases hstep with
  | tick now later => exact .same later (List.prefix_refl _) rfl rfl
  | commit => exact .same le_rfl (List.prefix_append ..) rfl rfl
  | note i v b =>
    cases b with
    | forgetSize => exact ⟨le_rfl, List.prefix_refl _, .inr ⟨Nat.lt_succ_self _, rfl⟩⟩
    | record => exact .same le_rfl (List.prefix_refl _) rfl rfl
    | keepSize generation count now =>
      refine .same le_rfl (List.prefix_refl _) ?_ rfl
      show (if generation = s.memo.generation then _ else s.memo).generation = _
      split
      · assumption
      · rfl
  | others | call | consult | answer => exact .same le_rfl (List.prefix_refl _) rfl rfl

/-- A step of one client that commits nothing. -/
theorem Sound.uncommitted (h : Sound c s) (hstep : Step c s s') (atI : s.clients[i]? = some v)
    (hclients : s'.clients = s.clients.set i u) (hcommits : s'.commits = s.commits)
    (hown : s'.ClientSound c i v → s'.ClientSound c i u)
    (hmemo : ∀ n at', s'.memo.counted = some (n, at') → Counted s.commits s'.settled at' n) :
    Sound c s' where
  clients := by
    have hv := (h.clients i v atI).later h.settled hstep.later fun q k hk _ => hcommits ▸ hk
    exact h.clients_set hstep.later hclients (fun q k hk _ => hcommits ▸ hk) (hown hv)
  settled := hstep.later.settled_le_length h.settled
  memo n at' hm := hcommits ▸ hmemo n at' hm
  done k mem := h.done k (hcommits ▸ mem)

/-- An entry in the books is sound: a size is kept only if it is not settled. -/
theorem Sound.note (h : Sound c s) {b : Bookkeeping τ}
    {next : Unit → Program τ (Except Failure Answer)} (atI : s.clients[i]? = some v)
    (asks : v.rest = .ask (.bookkeep b) next) :
    Sound c ((s.goOn i v (.bookkeep b) () (next ())).note b) := by
  have hstep := Step.note (c := c) s i v b next atI asks
  obtain ⟨order, traces⟩ := (h.clients i v atI).goes_on asks
  cases b with
  | record counter n =>
    refine h.uncommitted hstep atI rfl rfl (fun hv => ?_) h.memo
    exact hv.mark (traces ()) rfl rfl trivial fun b => rfl
  | forgetSize =>
    refine h.uncommitted hstep atI rfl rfl (fun hv => ?_) fun n at' hm => nomatch hm
    exact hv.forget (traces ()) rfl rfl rfl
  | keepSize g n now =>
    refine h.uncommitted hstep atI rfl rfl (fun hv => ?_) fun n' at' hm => ?_
    · exact hv.mark (traces ()) rfl rfl trivial fun b => rfl
    · replace hm : (if g = s.memo.generation then (⟨g, some (n, now)⟩ : SizeMemo τ)
        else s.memo).counted = some (n', at') := hm
      split at hm
      · next hg =>
        -- By the rule of the books it was counted under the generation that is still current.
        obtain ⟨rfl, rfl⟩ := Prod.mk.inj (Option.some.inj hm)
        obtain ⟨m₀, m, rfl, hmarks⟩ := order
        exact (h.clients i v atI).counted now m₀ m n hmarks hg
      · exact h.memo n' at' hm

theorem Sound.step (h : Sound c s) (hstep : Step c s s') : Sound c s' := by
  have hlater := hstep.later
  cases hstep with
  | tick now later =>
    exact ⟨fun i v atI => (h.clients i v atI).later h.settled hlater fun q k hk _ => hk,
      h.settled, h.memo, h.done⟩
  | others t =>
    exact ⟨fun i v atI => (h.clients i v atI).later h.settled hlater fun q k hk _ => hk,
      h.settled, h.memo, h.done⟩
  | call call =>
    refine ⟨fun i v atI => ?_, h.settled, h.memo, h.done⟩
    rcases getElem?_append_cases atI with h' | ⟨-, rfl⟩
    · exact (h.clients i v h').later h.settled hlater fun q k hk _ => hk
    · -- A call that begins has left no mark yet.
      refine ⟨Call.concludes_program c call, fun m mem => ?_, le_rfl, fun hall => ?_, ?_⟩
      · cases mem
      · cases hall
      · intro now m₀ m n hmarks
        cases hmarks
  | commit i v a next r t atI asks done =>
    have htraces := (h.clients i v atI).goes_on asks
    refine ⟨?_, hlater.settled_le_length h.settled, ?_, ?_⟩
    · refine h.clients_set hlater rfl (fun q k hk hne => ?_) ?_
      · rcases getElem?_append_cases hk with hk | ⟨-, rfl⟩
        · exact hk
        · exact absurd rfl hne
      · exact (h.clients i v atI).commit h.settled hlater rfl rfl rfl rfl (htraces.2 (.ok r))
          rfl rfl
    · exact fun n at' hm => (h.memo n at' hm).mono hlater.commits le_rfl
    · intro k mem
      rcases List.mem_append.1 mem with mem | mem
      · exact h.done k mem
      · obtain rfl := List.mem_singleton.1 mem
        exact ⟨t, done⟩
  | consult i v next atI asks =>
    have hstep := Step.consult (c := c) s i v next atI asks
    refine h.uncommitted hstep atI rfl rfl (fun hv => ?_) h.memo
    have hsince := (h.clients i v atI).since
    refine hv.mark (((h.clients i v atI).goes_on asks).2 s.memo) rfl rfl ?_ fun b => rfl
    exact ⟨le_rfl, fun n at' hm => (h.memo n at' hm).mono (List.prefix_refl _) hsince⟩
  | note i v b next atI asks => exact h.note atI asks
  | answer i v e next r atI asks possible other =>
    have hstep := Step.answer (c := c) s i v e next r atI asks possible other
    refine h.uncommitted hstep atI rfl rfl (fun hv => ?_) h.memo
    have htraces := ((h.clients i v atI).goes_on asks).2 r
    rcases marks_answer (t := v.trail) possible other with hmarks | ⟨m, hmarks, hsettles, hm⟩
    · exact hv.aside htraces hmarks rfl
    · exact hv.mark htraces hmarks rfl (hm _ rfl i v.since) hsettles

theorem Sound.steps (h : Sound c s) (hsteps : Steps c s s') : Sound c s' := by
  induction hsteps with
  | refl => exact h
  | tail _ hstep ih => exact ih.step hstep

theorem Reachable.sound {t : Table τ} (h : Reachable c t s) : Sound c s := by
  obtain ⟨clock, hsteps⟩ := h
  exact (sound_start c t clock).steps hsteps

end Outlet

end ExpiringStore
