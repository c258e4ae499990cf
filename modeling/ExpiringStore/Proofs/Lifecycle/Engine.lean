import ExpiringStore.Proofs.Interleaving.Play
import ExpiringStore.Proofs.Lifecycle.Reached

/-!
# A store that has started has an engine

Unless a startup was overtaken by a shutdown, a store that has started has an engine, and as long as
it is not let go nobody who calls is told that there is none.  A shutdown overtakes a startup that
waits for its table: it takes no lock, so the engine is let go and the gates are closed before the
table is answered, and then the startup opens them, with nothing behind them.  Who finds the table
missing asks for the engine once more; who finds it made does not.

    started, without an engine   ↔   Overtaken history      (started_without_engine_iff)
-/

namespace ExpiringStore

open Standing

variable {τ : Type}

namespace Facility

variable {s s' : Facility τ}

def started (s : Facility τ) : Bool := (s.gates .store).isOpen

/-- Nobody who goes on is starting the store or stopping it; those who wait may be. -/
def Settled (s : Facility τ) : Prop := s.stage = .outside

/-- Nobody from this number on was told that there is no engine. -/
def Undenied (n : Nat) (s : Facility τ) : Prop :=
  ∀ (i : Nat) (job : Job τ), n ≤ i → s.jobs[i]? = some job → job.standing.denied = false

theorem Sound.started_without_engine (h : Sound s) (settled : s.Settled) :
    s.started = true ∧ s.engine = false ↔ Overtaken s.history := by
  have hcoherent := h.coherent
  rw [settled] at hcoherent
  constructor
  · rintro ⟨hstarted, hclosed⟩
    exact (hcoherent.shut hstarted hclosed).resolve_right nofun
  · intro ho
    refine ⟨(hcoherent.overtaken ho).resolve_right nofun, ?_⟩
    exact hcoherent.closed_iff.2 ho.closed

/-! ## While the engine is not let go -/

section
variable [Instant τ] [Delay τ] {c : Config τ} {n : Nat}

theorem Step.grows (hstep : Step c s s') : ∃ later, s'.history = s.history ++ later := by
  cases hstep with
  | arrive errand => exact ⟨[], (List.append_nil _).symm⟩
  | answer i job e next r atI asks free possible => exact ⟨(e.incident? r).toList, rfl⟩
  | leave i job goes atI rests => exact ⟨[], (List.append_nil _).symm⟩

theorem Steps.grows (hsteps : Steps c s s') : ∃ later, s'.history = s.history ++ later := by
  induction hsteps with
  | refl => exact ⟨[], (List.append_nil _).symm⟩
  | tail _ hstep ih =>
    obtain ⟨first, hfirst⟩ := ih
    obtain ⟨last, hlast⟩ := Step.grows hstep
    exact ⟨first ++ last, by rw [hlast, hfirst, List.append_assoc]⟩

/-- A step that does not let the engine go leaves it open, and tells nobody that there is none. -/
theorem Step.keeps_engine (hstep : Step c s s') (engine : s.engine = true)
    (undenied : s.Undenied n) {later : List Incident} (record : s'.history = s.history ++ later)
    (kept : .released ∉ later) : s'.engine = true ∧ s'.Undenied n := by
  cases hstep with
  | arrive errand =>
    refine ⟨engine, fun i job hi atI => ?_⟩
    rcases getElem?_append_cases atI with h' | ⟨-, rfl⟩
    · exact undenied i job hi h'
    · rfl
  | leave i job goes atI rests => exact ⟨engine, undenied⟩
  | answer i job e next r atI asks free possible =>
    obtain rfl : (e.incident? r).toList = later := List.append_cancel_left record
    refine ⟨?_, fun j other hj atJ => ?_⟩
    · show e.engineAfter s.engine r = true
      rw [engineAfter_eq possible.1, engine]
      cases hm : e.incident? r with
      | none => rfl
      | some m =>
        cases m with
        | released => exact absurd (by rw [hm]; exact List.mem_singleton_self _) kept
        | _ => rfl
    · rcases getElem?_set_cases atJ with ⟨rfl, rfl⟩ | ⟨-, hother⟩
      · have hdenies : e.denies r = false := by
          by_contra hdenied
          cases (possible.2 (Bool.eq_true_of_not_eq_false hdenied)).symm.trans engine
        show (job.standing.denied || e.denies r) = false
        rw [undenied j job hj atI, hdenies]
        rfl
      · exact undenied j other hj hother

/-- As long as the engine is not let go it stays open, and nobody is told that there is none.  The
induction is on the run; what was not let go at its end was not let go before. -/
theorem Steps.keeps_engine (hsteps : Steps c s s') (engine : s.engine = true)
    (undenied : s.Undenied n) {later : List Incident} (record : s'.history = s.history ++ later)
    (kept : .released ∉ later) : s'.engine = true ∧ s'.Undenied n := by
  induction hsteps generalizing later with
  | refl => exact ⟨engine, undenied⟩
  | tail hbefore hstep ih =>
    obtain ⟨first, hfirst⟩ := Steps.grows hbefore
    obtain ⟨last, hlast⟩ := Step.grows hstep
    have hrecord : s.history ++ (first ++ last) = s.history ++ later := by
      rw [← record, hlast, hfirst, List.append_assoc]
    obtain rfl : first ++ last = later := List.append_cancel_left hrecord
    obtain ⟨hopen, hundenied⟩ := ih hfirst fun mem => kept (List.mem_append_left _ mem)
    exact Step.keeps_engine hstep hopen hundenied hlast fun mem =>
      kept (List.mem_append_right _ mem)

end

/-! ## Runs that are played -/

section
variable [Instant τ]

/-- The answer to an effect where nothing fails for another reason than that the engine is closed,
and the table is there, without rows. -/
def reply (s : Facility τ) : (e : Effect τ) → e.Reply
  | .readClock => .ok (Instant.ofSeconds 0)
  | .attempt a =>
    if s.engine then (a.commit .empty).map (·.1)
    else .error (.complaint ⟨.notInitialized, none, none⟩)
  | .pause _ => ()
  | .log _ => ()
  | .recallSize => {}
  | .bookkeep _ => ()
  | .listeners => []
  | .notify _ _ => none
  | .gate g step => (Rehearsal.stepGate (s.gates g).isOpen step).1
  | .engine .start => .ok (!s.engine)
  | .engine .isOpen => s.engine
  | .engine .dialect => if s.engine then some "sqlite" else none
  | .engine .hasTable => .ok true
  | .engine .makeTable => .ok true
  | .engine .dispose => ()
  | .engine .release => ()
  | .sweeper _ => ()
  | .noteRunning _ => ()

/-- A caller goes on by one effect, if it may and is answered so. -/
def act (i : Nat) (s : Facility τ) : Facility τ :=
  match s.jobs[i]? with
  | none => s
  | some job =>
    match job.rest with
    | .done _ => s
    | .ask e next =>
      if (s.running = none ∨ s.running = some i) ∧
          s.tells e (s.reply e) = true ∧ (e.denies (s.reply e) = true → s.engine = false) then
        s.answered i job e (s.reply e) (next (s.reply e))
      else s

/-- A caller goes on by so many effects. -/
def acts (i : Nat) : Nat → Facility τ → Facility τ
  | 0, s => s
  | n + 1, s => acts i n (act i s)

def leave (s : Facility τ) : Facility τ :=
  match s.running with
  | none => s
  | some i =>
    match s.jobs[i]? with
    | none => s
    | some job => if s.mayRest i job.rest then { s with running := none } else s

/-- What is decided of a run. -/
inductive Move where
  | arrive (errand : Errand)
  /-- A caller goes on by so many effects, if it may, and leaves off, if it may. -/
  | act (caller effects : Nat)

/-- Plays moves in turn. -/
def play [Delay τ] (c : Config τ) : List Move → Facility τ → Facility τ
  | [], s => s
  | .arrive errand :: rest, s =>
    play c rest { s with jobs := s.jobs ++ [⟨errand, ExceptT.run (errand.program c), {}⟩] }
  | .act i n :: rest, s => play c rest (leave (acts i n s))

variable [Delay τ] {c : Config τ}

theorem act_steps (i : Nat) (s : Facility τ) : Steps c s (act i s) := by
  unfold act
  split
  · exact .refl
  · next job atI =>
    split
    · exact .refl
    · next e next asks =>
      split
      · next h => exact .single (.answer s i job e next (s.reply e) atI asks h.1 h.2)
      · exact .refl

theorem acts_steps (i n : Nat) (s : Facility τ) : Steps c s (acts i n s) := by
  induction n generalizing s with
  | zero => exact .refl
  | succ n ih => exact (act_steps i s).trans (ih (act i s))

theorem leave_steps (s : Facility τ) : Steps c s (leave s) := by
  unfold leave
  split
  · exact .refl
  · next i goes =>
    split
    · exact .refl
    · next job atI =>
      split
      · next rests => exact .single (.leave s i job goes atI rests)
      · exact .refl

/-- What is played is a run of steps. -/
theorem play_steps (moves : List Move) (s : Facility τ) : Steps c s (play c moves s) := by
  induction moves generalizing s with
  | nil => exact .refl
  | cons m rest ih =>
    cases m with
    | arrive errand => exact .head (.arrive s errand) (ih _)
    | act i n => exact ((acts_steps i n s).trans (leave_steps _)).trans (ih _)

/-! ## The engine of a store that has started -/

/-- In a state in which nobody who goes on is starting or stopping the store, it has started and has
no engine exactly if a startup was overtaken.  If it has started and none was, it has an engine as
long as that is not let go, and whoever calls then does not fail for want of one. -/
theorem started_without_engine_iff (h : Reachable c s) (settled : s.Settled) :
    (s.started = true ∧ s.engine = false ↔ Overtaken s.history) ∧
    (s.started = true → ¬ Overtaken s.history → ∀ (s' : Facility τ) (later : List Incident),
      Steps c s s' → s'.history = s.history ++ later → .released ∉ later →
        s'.engine = true ∧ ∀ (i : Nat) (job : Job τ) (f : Failure), s.jobs.length ≤ i →
          s'.jobs[i]? = some job → job.rest = .done (.error f) → f.isUninitialized = false) := by
  have hiff := h.sound.started_without_engine settled
  refine ⟨hiff, fun hstarted hnot s' later hsteps hrecord hkept => ?_⟩
  have hengine : s.engine = true := by
    by_contra hclosed
    exact hnot (hiff.1 ⟨hstarted, Bool.eq_false_of_not_eq_true hclosed⟩)
  have hundenied : s.Undenied s.jobs.length := fun i job hi atI =>
    absurd (List.getElem?_eq_some_iff.1 atI).1 (Nat.not_lt.2 hi)
  obtain ⟨hopen, hlater⟩ := Steps.keeps_engine hsteps hengine hundenied hrecord hkept
  refine ⟨hopen, fun i job f hi atI hdone => ?_⟩
  have habides := (h.sound.steps hsteps).abides i job atI
  rw [hdone] at habides
  -- One who fails for want of an engine was told that there is none.
  by_contra hfails
  cases (hlater i job hi atI).symm.trans (habides.2 (Bool.eq_true_of_not_eq_false hfails))

end

/-- One starts the store, and nobody is in its way. -/
def opened : Facility Int := play .plain [.arrive .startup, .act 0 20] {}

/-- Then one calls with a key that is none. -/
def used : Facility Int := play .plain [.arrive (.call .clear), .act 1 20,
  .arrive (.call (.containsKey (.str "")))] opened

set_option maxRecDepth 1000 in
/-- The store has started and has its engine; it keeps it, and the failure is another one. -/
theorem started_without_engine_iff_inTurn : opened.started = true ∧ opened.engine = true ∧
    used.engine = true ∧ used.jobs.map (·.rest) = [.done (.ok .nothing), .done (.ok (.count 0)),
      .done (.error (.complaint ⟨.keyNotText, some "contains_key", some (.plain "")⟩))] ∧
    Failure.isUninitialized
      (.complaint ⟨.keyNotText, some "contains_key", some (.plain "")⟩) = false := by
  have hreached : Reachable .plain opened := play_steps _ _
  have hused : Steps .plain opened used := play_steps _ _
  obtain ⟨hiff, hlater⟩ := started_without_engine_iff hreached rfl
  have hnot : ¬ Overtaken opened.history := fun ho => nomatch (hiff.2 ho).2
  obtain ⟨hengine, hfails⟩ := hlater rfl hnot used [] hused (by decide) List.not_mem_nil
  exact ⟨rfl, rfl, hengine, rfl, hfails 2 _ _ (by decide) rfl rfl⟩

/-- One starts the store and waits for the table, another one stops it, and the first goes on. -/
def overtaken : Facility Int :=
  play .plain [.arrive .startup, .act 0 10, .arrive .shutdown, .act 1 20, .act 0 20] {}

/-- Then one calls. -/
def refused : Facility Int :=
  play .plain [.arrive (.call (.get (.str "k") true none)), .act 2 20] overtaken

set_option maxRecDepth 1000 in
/-- Nobody is starting or stopping the store any more, and it has started, but it has no engine, and
the next call fails for want of it. -/
theorem startup_overtaken : Reachable .plain overtaken ∧ overtaken.running = none ∧
    overtaken.jobs.map (·.rest) = [.done (.ok .nothing), .done (.ok .nothing)] ∧
    overtaken.started = true ∧ overtaken.engine = false ∧
    Steps .plain overtaken refused ∧ refused.jobs.map (·.rest) =
      [.done (.ok .nothing), .done (.ok .nothing),
        .done (.error (.complaint ⟨.notInitialized, none, none⟩))] :=
  ⟨play_steps _ _, rfl, rfl, rfl, rfl, play_steps _ _, rfl⟩

end Facility

end ExpiringStore
