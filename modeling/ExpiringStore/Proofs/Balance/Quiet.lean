import ExpiringStore.Proofs.Balance.Calls
import ExpiringStore.Proofs.Desk.Raising
import Mathlib.Algebra.BigOperators.Ring.Finset

/-!
# The balance of a till

When no call is under way, the counters account for every row.  As many were found and missed as the
calls since the counters were set back have returned and not returned; as many put as rows were
written, and as many evicted as rows were removed on request.  The listeners have heard of all of
them, but for the rows of a table that was emptied as a whole.

    hits = found        misses = missed
    puts = rows written = events of entries put
    evictions = rows removed on request = events of entries evicted + rows cleared

These are `counters_balance`.
-/

namespace ExpiringStore

variable {τ : Type}

/-! ## Calls that are over -/

theorem noted_of_isIdle {ms : List (Mark τ)} (idle : ms.all Mark.isIdle = true)
    (k : Statistics.Counter) : noted k ms = 0 := by
  induction ms with
  | nil => rfl
  | cons m rest ih =>
    obtain ⟨hm, hrest⟩ := Bool.and_eq_true_iff.1 (List.all_cons ▸ idle)
    rw [noted_cons, ih hrest]
    cases m with
    | noted => cases hm
    | _ => rfl

namespace Call

theorem found_error (call : Call) (f : Failure) : call.found (.error f) = 0 := by
  cases call <;> rfl

theorem missed_error (call : Call) (f : Failure) : call.missed (.error f) = 0 := by
  cases call <;> rfl

theorem found_of_other {call : Call} (other : call.looksUp = false) (r : Except Failure Answer) :
    call.found r = 0 := by
  cases call with
  | get | getAll => cases other
  | _ => rfl

theorem missed_of_other {call : Call} (other : call.looksUp = false) (r : Except Failure Answer) :
    call.missed r = 0 := by
  cases call with
  | get | getAll => cases other
  | _ => rfl

variable [Instant τ] [Delay τ] {c : Config τ} {call : Call} {t : Trail τ}

/-- However a call concludes, it has noted as found and as missed what it answers. -/
theorem Concludes.counted {r : Except Failure Answer} {ks : List (Deal τ)}
    (h : Concludes c call t r) (dealt : Dealt t.marks ks) :
    noted .hits t.marks = call.found r ∧ noted .misses t.marks = call.missed r := by
  cases looks : call.looksUp with
  | false =>
    have square := h.course.square dealt
    rw [square.hits looks, square.misses looks, found_of_other looks, missed_of_other looks]
    exact ⟨rfl, rfl⟩
  | true =>
    rcases h with ⟨f, rfl, idle, -⟩ | haccount
    · rw [noted_of_isIdle idle, noted_of_isIdle idle, found_error, missed_error]
      exact ⟨rfl, rfl⟩
    · exact haccount.counted dealt looks

theorem Concludes.noted_of_error {f : Failure} (h : Concludes c call t (.error f))
    (k : Statistics.Counter) : noted k t.marks = 0 := by
  rcases h with ⟨-, -, idle, -⟩ | haccount
  · exact noted_of_isIdle idle k
  rcases haccount.failure_cases with harmless | ⟨_, _, _, _, _, -, -, -, -, -, marks⟩
  · exact noted_of_isIdle harmless.1 k
  · rw [marks]
    rfl

end Call

namespace Party

/-- How many entries a call has returned that it has found. -/
def found (v : Party τ) : Nat := (v.result?.map v.call.found).getD 0

/-- How many of the keys that a call was asked for it has returned nothing for. -/
def missed (v : Party τ) : Nat := (v.result?.map v.call.missed).getD 0

/-- How many rows a call has written that is there to write. -/
def written (v : Party τ) : Nat := v.call.rowsWritten v.deals

/-- How many rows are gone that a call has removed on request. -/
def evicted (v : Party τ) : Nat := v.call.rowsEvicted v.deals

/-- How many of these are gone because the table was emptied. -/
def cleared (v : Party τ) : Nat := v.call.rowsCleared v.deals

def putsAnnounced (v : Party τ) : Nat := if v.call.writes then announcements v.trail.marks else 0

def evictsAnnounced (v : Party τ) : Nat :=
  if v.call.evicts && !v.call.clears then announcements v.trail.marks else 0

variable [Instant τ] [Delay τ] {c : Config τ} {v : Party τ}

theorem Sound.concludes (sound : v.Sound c) {r : Except Failure Answer}
    (ended : v.result? = some r) : v.call.Concludes c v.trail r := by
  have htraces := sound.traces
  unfold result? at ended
  split at ended
  · next hrest =>
    rw [hrest] at htraces
    exact Option.some.inj ended ▸ htraces
  · cases ended

theorem Sound.square (sound : v.Sound c) {r : Except Failure Answer} (ended : v.result? = some r) :
    v.call.Square v.trail.marks v.deals :=
  (sound.concludes ended).course.square sound.dealt

omit [Instant τ] [Delay τ] in
theorem evictsAnnounced_add_cleared (square : v.call.Square v.trail.marks v.deals) :
    v.evictsAnnounced + v.cleared = v.evicted := by
  unfold evictsAnnounced cleared evicted
  cases evicts : v.call.evicts with
  | false =>
    have spares : v.call.clears = false :=
      eq_false_of_ne_true fun clears => by cases evicts.symm.trans (Call.evicts_of_clears clears)
    simp [Call.rowsCleared, Call.rowsEvicted, evicts, spares]
  | true =>
    cases clears : v.call.clears with
    | false =>
      simp [Call.rowsCleared, clears, square.evicted evicts clears]
    | true => simp [Call.rowsCleared, Call.rowsEvicted, evicts, clears]

omit [Instant τ] [Delay τ] in
theorem putsAnnounced_eq (square : v.call.Square v.trail.marks v.deals) :
    v.putsAnnounced = v.written := by
  unfold putsAnnounced written
  cases writes : v.call.writes with
  | false => simp [Call.rowsWritten, writes]
  | true => rw [if_pos rfl, square.written writes]

end Party

/-! ## The balance -/

namespace Till

variable {s : Till τ}

theorem total_congr {β : Type} [AddCommMonoid β] {f g : Party τ → β}
    (h : ∀ v ∈ s.parties, f v = g v) : s.total f = s.total g :=
  congrArg List.sum (List.map_congr_left h)

theorem total_add {β : Type} [AddCommMonoid β] (f g : Party τ → β) :
    s.total (fun v => f v + g v) = s.total f + s.total g := List.sum_map_add

theorem total_cast (f : Party τ → Nat) : s.total (fun v => (f v : Int)) = ↑(s.total f) := by
  unfold total
  rw [Nat.cast_list_sum, List.map_map]
  rfl

variable [Instant τ] [Delay τ] {c : Config τ}

/-- The counters account for every row.  Calls were begun and answered in any order, with any
failures of the storage, and others may have changed the table.  When none is under way, then over
all calls since the counters were set back: what is counted as found and as missed is what lookups
have returned and have not; what is counted as put is the rows that were written, and is what was
announced as put; what is counted as evicted is the rows that were removed on request, and is what
was announced as evicted together with the rows that were cleared.  A listener that was registered
once all the time has heard so.  Calls that failed, and calls of other kinds, were not counted. -/
theorem counters_balance {t : Table τ} (reached : Steps c (start t) s) (quiet : s.IsQuiet) :
    s.statistics.hits = ↑(s.total Party.found) ∧ s.statistics.misses = ↑(s.total Party.missed) ∧
    s.statistics.puts = ↑(s.total Party.written) ∧
    s.total Party.putsAnnounced = s.total Party.written ∧
    s.statistics.evictions = ↑(s.total Party.evicted) ∧
    s.total Party.evictsAnnounced + s.total Party.cleared = s.total Party.evicted ∧
    (∀ l, (∀ v ∈ s.parties, ∀ ls, .listed ls ∈ v.trail.marks → ls.count l = 1) →
      timesHeard l Event.isPut s.heard = s.total Party.written ∧
      timesHeard l Event.isEvict s.heard + s.total Party.cleared = s.total Party.evicted) ∧
    ∀ v ∈ s.parties, ((∃ f, v.result? = some (.error f)) ∨
      (v.call.looksUp || v.call.writes || v.call.evicts) = false) →
      ∀ k, noted k v.trail.marks = 0 := by
  have sound := (sound_start c t).steps reached
  have hended (v : Party τ) (mem : v ∈ s.parties) : ∃ r, v.result? = some r :=
    Option.isSome_iff_exists.1 (quiet v mem)
  have hsquare (v : Party τ) (mem : v ∈ s.parties) : v.call.Square v.trail.marks v.deals := by
    obtain ⟨r, ended⟩ := hended v mem
    exact (sound.parties v mem).square ended
  have hcounter {k : Statistics.Counter} {f : Party τ → Nat}
      (h : ∀ v ∈ s.parties, noted k v.trail.marks = f v) :
      s.statistics.counted k = ↑(s.total f) := by
    rw [sound.statistics, ← total_cast]
    exact total_congr h
  have hlookups (v : Party τ) (mem : v ∈ s.parties) :
      noted .hits v.trail.marks = v.found ∧ noted .misses v.trail.marks = v.missed := by
    obtain ⟨r, ended⟩ := hended v mem
    unfold Party.found Party.missed
    rw [ended]
    exact ((sound.parties v mem).concludes ended).counted (sound.parties v mem).dealt
  refine ⟨hcounter fun v mem => (hlookups v mem).1, hcounter fun v mem => (hlookups v mem).2,
    hcounter fun v mem => (hsquare v mem).puts,
    total_congr fun v mem => Party.putsAnnounced_eq (hsquare v mem),
    hcounter fun v mem => (hsquare v mem).evictions, ?_, fun l once => ?_, fun v mem idle k => ?_⟩
  · rw [← total_add]
    exact total_congr fun v mem => Party.evictsAnnounced_add_cleared (hsquare v mem)
  · rw [sound.heard, sound.heard, ← total_add]
    exact ⟨total_congr fun v mem => ((hsquare v mem).told l (once v mem)).1,
      total_congr fun v mem => ((hsquare v mem).told l (once v mem)).2⟩
  · rcases idle with ⟨f, ended⟩ | other
    · exact ((sound.parties v mem).concludes ended).noted_of_error k
    · have square := hsquare v mem
      obtain ⟨hothers, hevicts⟩ := Bool.or_eq_false_iff.1 other
      obtain ⟨hlooks, hwrites⟩ := Bool.or_eq_false_iff.1 hothers
      cases k with
      | hits => exact square.hits hlooks
      | misses => exact square.misses hlooks
      | puts => simp [square.puts, Call.rowsWritten, hwrites]
      | evictions => simp [square.evictions, Call.rowsEvicted, hevicts]

/-! ## A run -/

/-- What is decided of a run. -/
inductive Turn where
  | call (call : Call)
  /-- A party goes on by so many effects, if its call has so many. -/
  | act (party steps : Nat)

/-- A party goes on by one effect, where nothing fails that need not. -/
def act (clock : τ) (ls : List ListenerId) (i : Nat) (s : Till τ) : Till τ :=
  match s.parties[i]? with
  | none => s
  | some v =>
    match v.rest with
    | .done _ => s
    | .ask (.bookkeep b) next =>
      { s.goOn i v (.bookkeep b) () (next ()) with statistics := s.statistics.after b }
    | .ask (.notify l e) next =>
      { s.goOn i v (.notify l e) none (next none) with heard := s.heard ++ [(l, e)] }
    | .ask .listeners next => s.goOn i v .listeners ls (next ls)
    | .ask (.attempt a) next =>
      match a.commit s.table with
      | .ok (r, t) => { s.goOn i v (.attempt a) (.ok r) (next (.ok r)) [⟨a, r, s.table, t⟩] with
          table := t }
      | .error f => s.goOn i v (.attempt a) (.error f) (next (.error f))
    | .ask e next =>
      let r := (e.answer clock s.table).1
      s.goOn i v e r (next r)

/-- A party goes on by so many effects. -/
def acts (clock : τ) (ls : List ListenerId) (i : Nat) : Nat → Till τ → Till τ
  | 0, s => s
  | n + 1, s => acts clock ls i n (act clock ls i s)

/-- Takes turns. -/
def play (c : Config τ) (clock : τ) (ls : List ListenerId) : List Turn → Till τ → Till τ
  | [], s => s
  | .call call :: rest, s =>
    play c clock ls rest { s with parties := s.parties ++ [.new c call] }
  | .act i n :: rest, s => play c clock ls rest (acts clock ls i n s)

theorem act_steps (c : Config τ) (clock : τ) (ls : List ListenerId) (i : Nat) (s : Till τ) :
    Steps c s (act clock ls i s) := by
  unfold act
  split
  · exact .refl
  · next v atI =>
    split
    · exact .refl
    · next b next asks => exact .single (.note s i v b next atI asks)
    · next l e next asks => exact .single (.tell s i v l e next none atI asks)
    · next next asks => exact .single (.answer s i v .listeners next ls atI asks trivial)
    · next a next asks =>
      split
      · next r t done => exact .single (.commit s i v a next r t atI asks done)
      · next f _ => exact .single (.answer s i v (.attempt a) next (.error f) atI asks trivial)
    · next e next hnote htell _ hattempt asks =>
      refine .single (.answer s i v e next _ atI asks ?_)
      cases e with
      | attempt a => exact absurd HEq.rfl (hattempt a next rfl)
      | bookkeep b => exact absurd HEq.rfl (hnote b next rfl)
      | notify l e => exact absurd HEq.rfl (htell l e next rfl)
      | _ => trivial

theorem acts_steps (c : Config τ) (clock : τ) (ls : List ListenerId) (i n : Nat) (s : Till τ) :
    Steps c s (acts clock ls i n s) := by
  induction n generalizing s with
  | zero => exact .refl
  | succ n ih => exact (act_steps c clock ls i s).trans (ih (act clock ls i s))

theorem play_steps (c : Config τ) (clock : τ) (ls : List ListenerId) (turns : List Turn)
    (s : Till τ) : Steps c s (play c clock ls turns s) := by
  induction turns generalizing s with
  | nil => exact .refl
  | cons turn rest ih =>
    cases turn with
    | call call => exact .head (.call s call) (ih _)
    | act i n => exact (acts_steps c clock ls i n s).trans (ih _)

/-- An entry is put, found and evicted, all before the one who puts it has noted it.  Of two keys
that are looked up, one is found. -/
def hurried : Till Int :=
  play .plain 0 [⟨"onlooker", "Onlooker"⟩] [
    .call (.put (.str "a") (.int 1) .none Policy.absolute.toValue), .act 0 3,
    .call (.getAll (.list [.str "b", .str "a", .str "b"])), .act 1 10,
    .call (.evict (.str "a")), .act 2 10, .act 0 10] (start .empty)

set_option maxRecDepth 1000 in
theorem counters_balance_hurried :
    hurried.statistics = ⟨1, 1, 1, 1⟩ ∧ hurried.total Party.found = 1 ∧
      hurried.total Party.missed = 1 ∧ hurried.total Party.written = 1 ∧
      hurried.total Party.evicted = 1 := by
  have hstatistics : hurried.statistics = ⟨1, 1, 1, 1⟩ := by decide +kernel
  have quiet : hurried.IsQuiet := by
    have hall : hurried.parties.all (fun v => v.result?.isSome) = true := by decide +kernel
    exact List.all_eq_true.1 hall
  obtain ⟨hhits, hmisses, hputs, -, hevictions, -⟩ :=
    counters_balance (play_steps .plain 0 [⟨"onlooker", "Onlooker"⟩] _ (start .empty)) quiet
  have hsame {n : Int} {m : Nat} (h : n = m) (hn : n = 1) : m = 1 := by omega
  refine ⟨hstatistics, hsame hhits ?_, hsame hmisses ?_, hsame hputs ?_, hsame hevictions ?_⟩
  all_goals exact congrArg _ hstatistics

end Till

end ExpiringStore
