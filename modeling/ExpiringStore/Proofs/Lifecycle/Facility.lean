import ExpiringStore.Proofs.Interleaving.Basic
import ExpiringStore.Proofs.Lifecycle.Calls
import ExpiringStore.Proofs.Lifecycle.History
import ExpiringStore.Rehearsal.Handler
import Mathlib.Logic.Relation

/-!
# Starting, stopping and using a store at the same time

Any number of callers start one store, stop it, and call its operations.  One of them goes on at a
time, until it is done or an effect makes it wait, and only then another one does; so what happens
between two waits happens at once.  How transactions end is left open, and so is whether the table
was there, but that there is no engine is answered only while there is none.

    Step c s s'          one step
    Reachable c s        s is reached from a closed engine and closed gates, before any caller
    Sound s              every caller stands where its program says, and what has happened decides
                         whether the engine is open (Reachable.sound)
-/

namespace ExpiringStore

variable {τ : Type}

/-- What callers come for. -/
inductive Errand where
  | startup
  | shutdown
  | call (asked : Call)

def Errand.program [Instant τ] [Delay τ] (c : Config τ) : Errand → Operation τ Answer
  | .startup => (fun _ => .nothing) <$> Operation.startup c
  | .shutdown => (fun _ => .nothing) <$> Operation.shutdown c
  | .call asked => asked.program c

/-- A caller: what remains of its program, and where it stands. -/
structure Job (τ : Type) where
  errand : Errand
  rest : Program τ (Except Failure Answer)
  standing : Standing := {}

/-- Is a caller asking for the lock of a gate? -/
def Job.awaits (g : GateName) (job : Job τ) : Bool :=
  match job.rest with
  | .ask (.gate g' .lock) _ => g' == g
  | _ => false

/-- A gate, and the number of the caller that has its lock. -/
structure Gatehouse where
  isOpen : Bool := false
  holder : Option Nat := none

def Gatehouse.after (i : Nat) (g : Gatehouse) (step : GateStep) : Gatehouse where
  isOpen := (Rehearsal.stepGate g.isOpen step).2
  holder :=
    match step with
    | .lock => some i
    | .unlock => none
    | .look | .unbar | .bar => g.holder

/-- An engine and two gates with those who use them. -/
structure Facility (τ : Type) where
  /-- Is the engine open, and with it the factory of its sessions? -/
  engine : Bool := false
  gates : GateName → Gatehouse := fun _ => {}
  jobs : List (Job τ) := []
  /-- The caller that goes on, if one does. -/
  running : Option Nat := none
  /-- In the order in which it happened. -/
  history : List Incident := []

namespace Effect

/-- What happens as an effect is answered, if something does. -/
def incident? : (e : Effect τ) → e.Reply → Option Incident
  | .engine .start, .ok true => some .opened
  | .engine .release, _ => some .released
  | .engine .makeTable, .ok true => some .found
  | .gate .store .unbar, _ => some .unbarred
  | .gate .store .bar, _ => some .barred
  | _, _ => none

def engineAfter (engine : Bool) : (e : Effect τ) → e.Reply → Bool
  | .engine .start, .ok _ => true
  | .engine .release, _ => false
  | _, _ => engine

end Effect

namespace Facility

variable (s : Facility τ)

/-- May the gates and the engine answer so? -/
def tells : (e : Effect τ) → e.Reply → Bool
  | .gate g step, r => r == (Rehearsal.stepGate (s.gates g).isOpen step).1 &&
      (step != .lock || (s.gates g).holder.isNone)
  | .engine .start, .ok opened => opened == !s.engine
  | .engine .isOpen, isOpen => isOpen == s.engine
  | .engine .dialect, name => name.isSome == s.engine
  | _, _ => true

/-- May an effect be answered so?  Only a closed engine is a reason to say that there is none. -/
def Answers (e : Effect τ) (r : e.Reply) : Prop :=
  s.tells e r = true ∧ (e.denies r = true → s.engine = false)

/-- May an effect make a caller wait, so that others go on before it is answered?  For a lock one
waits as well if others have been waiting for it. -/
def mayWait (i : Nat) : Effect τ → Bool
  | .gate g .lock => (s.gates g).holder.isSome || (s.jobs.eraseIdx i).any (Job.awaits g)
  | .attempt _ | .pause _ | .notify _ _ | .sweeper .stop
  | .engine .hasTable | .engine .makeTable | .engine .dispose => true
  | _ => false

/-- May a caller leave off here? -/
def mayRest {α : Type} (i : Nat) : Program τ α → Bool
  | .done _ => true
  | .ask e _ => s.mayWait i e

def gatesAfter (i : Nat) : Effect τ → GateName → Gatehouse
  | .gate g step => Function.update s.gates g ((s.gates g).after i step)
  | _ => s.gates

def answered (i : Nat) (job : Job τ) (e : Effect τ) (r : e.Reply)
    (rest : Program τ (Except Failure Answer)) : Facility τ where
  engine := e.engineAfter s.engine r
  gates := s.gatesAfter i e
  jobs := s.jobs.set i { job with rest, standing := Standing.rule.after job.standing e r }
  running := some i
  history := s.history ++ (e.incident? r).toList

/-- Where the caller stands that goes on. -/
def stage : Stage := (s.running.bind (s.jobs[·]?)).elim .outside (·.standing.stage)

variable [Instant τ] [Delay τ] {s' : Facility τ}

/-- One step of one of the callers, or of one who joins them. -/
inductive Step (c : Config τ) : Facility τ → Facility τ → Prop
  | arrive (s : Facility τ) (errand : Errand) :
      Step c s { s with jobs := s.jobs ++ [⟨errand, ExceptT.run (errand.program c), {}⟩] }
  | answer (s : Facility τ) (i : Nat) (job : Job τ) (e : Effect τ)
      (next : e.Reply → Program τ (Except Failure Answer)) (r : e.Reply)
      (atI : s.jobs[i]? = some job) (asks : job.rest = .ask e next)
      (free : s.running = none ∨ s.running = some i) (possible : s.Answers e r) :
      Step c s (s.answered i job e r (next r))
  | leave (s : Facility τ) (i : Nat) (job : Job τ) (goes : s.running = some i)
      (atI : s.jobs[i]? = some job) (rests : s.mayRest i job.rest = true) :
      Step c s { s with running := none }

abbrev Steps (c : Config τ) : Facility τ → Facility τ → Prop := Relation.ReflTransGen (Step c)

/-- The states that are reached from a closed engine and closed gates, before any caller. -/
def Reachable (c : Config τ) (s : Facility τ) : Prop := Steps c {} s

/-! ## As it is rehearsed -/

/-- The engine and the gates are those of a store on the stage of a rehearsal. -/
structure Shows (s : Facility Number) (w : Rehearsal.World) (store : String) : Prop where
  engine : s.engine = (w.database (w.databaseOf store)).engine.isSome
  started : (s.gates .store).isOpen = (w.store? store).elim false (·.started)
  locked : (s.gates .store).holder.isSome = (w.store? store).any (·.locked)
  schemaReady : (s.gates .schema).isOpen = (w.database (w.databaseOf store)).schemaReady
  schemaLocked : (s.gates .schema).holder.isSome =
    (w.database (w.databaseOf store)).schemaLocked

/-- On the stage, an effect that is not blocked is answered as the gates and the engine may. -/
theorem Shows.tells_answer {s : Facility Number} {w : Rehearsal.World} {store : String}
    (shows : s.Shows w store) (run : Rehearsal.Runner) {e : Effect Number}
    (free : Rehearsal.isBlocked store e w = false) :
    s.tells e (Rehearsal.answerWith run store e w).1 = true := by
  have hfree {g : GateName} (blocked : (s.gates g).holder.isSome = false) :
      (s.gates g).holder.isNone = true := by rw [← Option.not_isSome, blocked]; rfl
  cases e with
  | gate g step =>
    cases g with
    | store =>
      cases step with
      | lock =>
        have hnone := hfree (shows.locked.trans free)
        simp [tells, Rehearsal.answerWith, Rehearsal.stepGate, hnone]
      | _ => simp [tells, Rehearsal.answerWith, Rehearsal.stepGate, shows.started]
    | schema =>
      cases step with
      | lock =>
        have hnone := hfree (shows.schemaLocked.trans free)
        simp [tells, Rehearsal.answerWith, Rehearsal.stepGate, hnone]
      | _ => simp [tells, Rehearsal.answerWith, Rehearsal.stepGate, shows.schemaReady]
  | engine step =>
    cases step with
    | start =>
      simp only [Rehearsal.answerWith, Rehearsal.stepEngine]
      split
      · next hopen => simp [tells, shows.engine, hopen]
      · next hclosed =>
        split
        · simpa [tells, shows.engine] using hclosed
        · rfl
    | isOpen => simp [tells, Rehearsal.answerWith, Rehearsal.stepEngine, shows.engine]
    | dialect => simp [tells, Rehearsal.answerWith, Rehearsal.stepEngine, shows.engine]
    | _ => rfl
  | _ => rfl

/-- On the stage, operations that go on together leave off only where one may wait. -/
theorem Shows.mayWait {s : Facility Number} {w : Rehearsal.World} {store : String}
    (shows : s.Shows w store) (i : Nat) {e : Effect Number}
    (leaves : Rehearsal.isBlocked store e w = true ∨ Rehearsal.takesTime e = true) :
    s.mayWait i e = true := by
  cases e with
  | attempt => rfl
  | gate g step =>
    cases step with
    | lock =>
      refine Bool.or_eq_true_iff.2 (.inl ?_)
      cases g with
      | store => exact shows.locked.trans (leaves.resolve_right nofun)
      | schema => exact shows.schemaLocked.trans (leaves.resolve_right nofun)
    | _ => cases g <;> exact (leaves.elim nofun nofun)
  | engine step =>
    cases step with
    | hasTable | makeTable => rfl
    | _ => exact (leaves.elim nofun nofun)
  | _ => exact (leaves.elim nofun nofun)

end Facility

/-! ## What permitted effects come to -/

namespace Stage

/-- Is one bound to open the gate or to close it, whatever is answered? -/
def isBound : Stage → Bool
  | .made | .closing => true
  | .outside | .inside | .opened | .passed => false

/-- What may happen to one who stands somewhere, and where it leads. -/
inductive Turn : Stage → Option Incident → Stage → Prop
  | stay (stage : Stage) : Turn stage none stage
  | move (stage stage' : Stage) (free : stage.isBound = false) (free' : stage'.isBound = false) :
      Turn stage none stage'
  | opened (stage stage' : Stage) : Turn stage (some .opened) stage'
  | released (stage : Stage) (free : stage.isBound = false) :
      Turn stage (some .released) .closing
  | found (stage : Stage) : Turn stage (some .found) .made
  | unbarred (stage : Stage) (ready : stage.isReady = true) : Turn stage (some .unbarred) .passed
  | barred (stage : Stage) : Turn stage (some .barred) .outside

theorem Turn.same {stage stage' : Stage} (h : stage' = stage) : Turn stage none stage' :=
  h ▸ .stay stage

theorem turn_gate {stage : Stage} {setting : Bool} {step : GateStep}
    (permitted : stage.Permits setting (.gate .store step : Effect τ)) (r : Bool) :
    Turn stage ((.gate .store step : Effect τ).incident? r)
      (stage.after (.gate .store step : Effect τ) r) := by
  cases step with
  | look => exact .same (by cases stage <;> rfl)
  | lock =>
    cases stage with
    | outside => exact .move _ _ rfl rfl
    | _ => exact permitted.elim
  | unlock =>
    cases stage with
    | inside | passed => exact .move _ _ rfl rfl
    | _ => exact permitted.elim
  | unbar =>
    cases stage with
    | opened | made => exact .unbarred _ rfl
    | _ => exact permitted.elim
  | bar =>
    cases stage with
    | outside | closing => exact .barred _
    | _ => exact permitted.elim

theorem turn_engine {stage : Stage} {setting : Bool} {step : EngineStep}
    (permitted : stage.Permits setting (.engine step : Effect τ)) (r : step.Reply) :
    Turn stage ((.engine step : Effect τ).incident? r)
      (stage.after (.engine step : Effect τ) r) := by
  cases step with
  | start =>
    rcases r with f | _ | _
    · exact .same (by cases stage <;> rfl)
    · cases stage with
      | outside => exact .same rfl
      | inside => exact .move _ _ rfl rfl
      | _ => exact permitted.elim
    · exact .opened _ _
  | isOpen =>
    cases stage with
    | outside => exact .same rfl
    | opened =>
      cases r with
      | false => exact .move _ _ rfl rfl
      | true => exact .same rfl
    | _ => exact permitted.elim
  | dialect =>
    cases stage with
    | outside => exact .same rfl
    | inside | opened =>
      cases r with
      | none => exact .move _ _ rfl rfl
      | some name => exact .move _ _ rfl rfl
    | _ => exact permitted.elim
  | makeTable =>
    cases stage with
    | opened =>
      rcases r with f | _ | _
      · exact .move _ _ rfl rfl
      · exact .move _ _ rfl rfl
      · exact .found _
    | _ => exact permitted.elim
  | release =>
    cases stage with
    | outside => exact .released _ rfl
    | _ => exact permitted.elim
  | hasTable | dispose => exact .same (by cases stage <;> rfl)

/-- Every answer to a permitted effect is such a turn. -/
theorem turn_after {stage : Stage} {setting : Bool} {e : Effect τ}
    (permitted : stage.Permits setting e) (r : e.Reply) :
    Turn stage (e.incident? r) (stage.after e r) := by
  cases e with
  | gate g step =>
    cases g with
    | store => exact turn_gate permitted r
    | schema => exact .same (by cases stage <;> rfl)
  | engine step => exact turn_engine permitted r
  | _ => exact .same (by cases stage <;> rfl)

end Stage

/-! ## What is true of the engine and the gate of the store -/

/-- What is true of an engine and a gate, where one stands who goes on. -/
structure Coherent (stage : Stage) (engine isOpen : Bool) (history : List Incident) : Prop where
  closed_iff : engine = false ↔ Closed history
  /-- The gate is open, or about to be opened, when one was overtaken. -/
  overtaken (h : Overtaken history) : isOpen = true ∨ stage = .made
  made (stands : stage = .made) (closed : engine = false) : Overtaken history
  /-- The gate is closed, or about to be closed, when nobody was overtaken. -/
  shut (opened : isOpen = true) (closed : engine = false) : Overtaken history ∨ stage = .closing

namespace Incident

def engineAfter (engine : Bool) : Incident → Bool
  | .opened => true
  | .released => false
  | .found | .unbarred | .barred => engine

def gateAfter (isOpen : Bool) : Incident → Bool
  | .unbarred => true
  | .barred => false
  | .opened | .released | .found => isOpen

end Incident

namespace Coherent

variable {stage stage' : Stage} {engine isOpen : Bool} {history : List Incident}

theorem rest (h : Coherent stage engine isOpen history)
    (rests : stage = .outside ∨ stage = .opened) : Coherent .outside engine isOpen history where
  closed_iff := h.closed_iff
  overtaken ho := by
    rcases h.overtaken ho with hopen | rfl
    · exact .inl hopen
    · rcases rests with h | h <;> cases h
  made := nofun
  shut opened closed := by
    rcases h.shut opened closed with ho | rfl
    · exact .inl ho
    · rcases rests with h | h <;> cases h

/-- Nobody has gone on, and one goes on who is about to make the table, or stands outside. -/
theorem resume (h : Coherent .outside engine isOpen history)
    (rests : stage = .outside ∨ stage = .opened) : Coherent stage engine isOpen history where
  closed_iff := h.closed_iff
  overtaken ho := (h.overtaken ho).imp_right nofun
  made stands := by
    rcases rests with rfl | rfl <;> cases stands
  shut opened closed := (h.shut opened closed).imp_right nofun

/-- What a turn makes of the engine, the gate and the history. -/
theorem turn (h : Coherent stage engine isOpen history) {m? : Option Incident}
    (turn : stage.Turn m? stage')
    (ready : m? = some .unbarred → stage = .opened → engine = true) :
    Coherent stage' (m?.elim engine (Incident.engineAfter engine))
      (m?.elim isOpen (Incident.gateAfter isOpen)) (history ++ m?.toList) := by
  cases turn with
  | stay =>
    rw [Option.toList_none, List.append_nil]
    exact h
  | move _ free free' =>
    rw [Option.toList_none, List.append_nil]
    refine ⟨h.closed_iff, fun ho => ?_, ?_, fun opened closed => ?_⟩
    · exact .inl ((h.overtaken ho).resolve_right (by rintro rfl; cases free))
    · rintro rfl
      cases free'
    · exact .inl ((h.shut opened closed).resolve_right (by rintro rfl; cases free))
  | opened =>
    refine ⟨?_, fun ho => ?_, nofun, nofun⟩
    · simp [Incident.engineAfter, closed_concat]
    · simp [overtaken_concat] at ho
  | released free =>
    refine ⟨?_, fun ho => ?_, nofun, fun _ _ => .inr rfl⟩
    · simp [Incident.engineAfter, closed_concat]
    · have hbefore : Overtaken history := by simpa [overtaken_concat] using ho
      exact .inl ((h.overtaken hbefore).resolve_right (by rintro rfl; cases free))
  | found =>
    refine ⟨?_, fun _ => .inr rfl, fun _ closed => ?_, fun opened closed => ?_⟩
    · simpa [Incident.engineAfter, closed_concat] using h.closed_iff
    · exact overtaken_concat.2 (.inl ⟨rfl, h.closed_iff.1 closed⟩)
    · exact .inl (overtaken_concat.2 (.inl ⟨rfl, h.closed_iff.1 closed⟩))
  | unbarred hready =>
    refine ⟨?_, fun _ => .inl rfl, nofun, fun _ closed => .inl ?_⟩
    · simpa [Incident.engineAfter, closed_concat] using h.closed_iff
    · -- Whoever saw the engine open and has not waited since sees it open still.
      have hmade : stage = .made := by
        cases stage with
        | opened => cases closed.symm.trans (ready rfl rfl)
        | made => rfl
        | _ => cases hready
      exact overtaken_concat.2 (.inr ⟨h.made hmade closed, nofun, nofun⟩)
  | barred =>
    refine ⟨?_, fun ho => ?_, nofun, nofun⟩
    · simpa [Incident.engineAfter, closed_concat] using h.closed_iff
    · simp [overtaken_concat] at ho

end Coherent

/-! ## Who has the locks -/

namespace Stage

variable {stage : Stage} {setting : Bool} {e : Effect τ}

/-- What a permitted effect has to do with the lock of the store's gate. -/
theorem lock_cases (permitted : stage.Permits setting e) (r : e.Reply) :
    (e = .gate .store .lock ∧ stage = .outside) ∨
    (e = .gate .store .unlock ∧ stage.hasLock = true ∧ setting = false ∧
      stage.after e r = .outside) ∨
    ((stage.after e r).hasLock = stage.hasLock ∧ ∀ (s : Facility τ) (i : Nat),
      (s.gatesAfter i e .store).holder = (s.gates .store).holder) := by
  cases e with
  | gate g step =>
    cases g with
    | schema => exact .inr (.inr ⟨by cases stage <;> rfl, fun _ _ => rfl⟩)
    | store =>
      cases step with
      | look => exact .inr (.inr ⟨by cases stage <;> rfl, fun _ _ => rfl⟩)
      | lock =>
        cases stage with
        | outside => exact .inl ⟨rfl, rfl⟩
        | _ => exact permitted.elim
      | unlock =>
        cases stage with
        | inside | passed => exact .inr (.inl ⟨rfl, rfl, permitted, rfl⟩)
        | _ => exact permitted.elim
      | unbar | bar => exact .inr (.inr ⟨by cases stage <;> rfl, fun _ _ => rfl⟩)
  | engine step =>
    refine .inr (.inr ⟨?_, fun _ _ => rfl⟩)
    cases step with
    | start | makeTable => cases stage <;> rcases r with f | _ | _ <;> rfl
    | isOpen | dialect => cases stage <;> cases r <;> rfl
    | hasTable | dispose | release => cases stage <;> rfl
  | _ => exact .inr (.inr ⟨by cases stage <;> rfl, fun _ _ => rfl⟩)

/-- What a permitted effect has to do with the lock of the table's gate. -/
theorem setting_cases (permitted : stage.Permits setting e) :
    (e = .gate .schema .lock ∧ stage = .opened) ∨
    (e = .gate .schema .unlock ∧ setting = true) ∨
    (Standing.settingAfter setting e = setting ∧ ∀ (s : Facility τ) (i : Nat),
      (s.gatesAfter i e .schema).holder = (s.gates .schema).holder) := by
  cases e with
  | gate g step =>
    cases g with
    | store => exact .inr (.inr ⟨rfl, fun _ _ => rfl⟩)
    | schema =>
      cases step with
      | lock =>
        cases stage with
        | opened => exact .inl ⟨rfl, rfl⟩
        | _ => exact permitted.elim
      | unlock =>
        cases stage with
        | inside | opened | made => exact .inr (.inl ⟨rfl, permitted⟩)
        | _ => exact permitted.elim
      | look | unbar | bar => exact .inr (.inr ⟨rfl, fun _ _ => rfl⟩)
  | _ => exact .inr (.inr ⟨rfl, fun _ _ => rfl⟩)

/-- Whoever sees the engine open saw it open before, or is told so. -/
theorem sees_after {s : Facility τ} {r : e.Reply} (permitted : stage.Permits setting e)
    (told : s.tells e r = true)
    (sees : stage = .opened → s.engine = true ∨ e = .engine .makeTable)
    (after : stage.after e r = .opened) : e.engineAfter s.engine r = true := by
  cases e with
  | engine step =>
    cases step with
    | start =>
      cases r with
      | ok opened => rfl
      | error f =>
        cases stage with
        | opened => exact permitted.elim
        | _ => cases after
    | isOpen =>
      cases r with
      | true => exact (eq_of_beq told).symm
      | false => cases stage <;> cases after
    | dialect =>
      cases r with
      | some name => exact (eq_of_beq told).symm
      | none => cases stage <;> cases after
    | makeTable =>
      cases stage with
      | opened => rcases r with f | _ | _ <;> cases after
      | _ => cases after
    | hasTable | dispose | release =>
      cases stage with
      | opened => exact permitted.elim
      | _ => cases after
  | gate g step =>
    have hstage : stage = .opened := by
      cases g <;> cases step <;> cases stage <;> first | rfl | cases after
    exact (sees hstage).resolve_right nofun
  | _ =>
    have hstage : stage = .opened := by cases stage <;> first | rfl | cases after
    exact (sees hstage).resolve_right nofun

/-- Whoever waits stands outside, or makes the table, or finds others at the gate of the table. -/
theorem wait_cases {s : Facility τ} {i : Nat} (permitted : stage.Permits setting e)
    (waits : s.mayWait i e = true) :
    stage = .outside ∨ (stage = .opened ∧ e = .engine .makeTable) ∨
    (stage = .opened ∧ setting = false ∧ ((∃ j, (s.gates .schema).holder = some j) ∨
      ∃ job ∈ s.jobs.eraseIdx i, job.awaits .schema = true)) := by
  have outside (elsewhere : ∀ stage : Stage, stage ≠ .outside → ¬ stage.Permits setting e) :
      stage = .outside := by
    by_contra hstage
    exact elsewhere stage hstage permitted
  cases e with
  | gate g step =>
    cases step with
    | lock =>
      cases g with
      | store => exact .inl (outside fun stage => by cases stage <;> simp [Permits])
      | schema =>
        cases stage with
        | opened =>
          refine .inr (.inr ⟨rfl, permitted, ?_⟩)
          rcases Bool.or_eq_true_iff.1 waits with hheld | hqueued
          · exact .inl (Option.isSome_iff_exists.1 hheld)
          · exact .inr (List.any_eq_true.1 hqueued)
        | _ => exact permitted.elim
    | _ => cases g <;> cases waits
  | attempt | pause | notify =>
    exact .inl (outside fun stage => by cases stage <;> simp [Permits])
  | sweeper step =>
    cases step with
    | start => cases waits
    | stop => exact .inl (outside fun stage => by cases stage <;> simp [Permits])
  | engine step =>
    cases step with
    | makeTable =>
      cases stage with
      | opened => exact .inr (.inl ⟨rfl, rfl⟩)
      | _ => exact permitted.elim
    | hasTable | dispose =>
      exact .inl (outside fun stage => by cases stage <;> simp [Permits])
    | _ => cases waits
  | _ => cases waits

end Stage

namespace Facility

variable {s : Facility τ} {e : Effect τ} {r : e.Reply}

/-- What was told of the engine decides whether it is open. -/
theorem engineAfter_eq (told : s.tells e r = true) : e.engineAfter s.engine r =
    (e.incident? r).elim s.engine (Incident.engineAfter s.engine) := by
  cases e with
  | engine step =>
    cases step with
    | start =>
      rcases r with f | _ | _
      · rfl
      · have hopen : s.engine = true := by simpa [tells] using told
        exact hopen.symm
      · rfl
    | makeTable => rcases r with f | _ | _ <;> rfl
    | _ => rfl
  | gate g step => cases g <;> cases step <;> rfl
  | _ => rfl

theorem isOpen_gatesAfter (i : Nat) : (s.gatesAfter i e .store).isOpen =
    (e.incident? r).elim (s.gates .store).isOpen
      (Incident.gateAfter (s.gates .store).isOpen) := by
  cases e with
  | engine step =>
    cases step with
    | start | makeTable => rcases r with f | _ | _ <;> rfl
    | _ => rfl
  | gate g step => cases g <;> cases step <;> rfl
  | _ => rfl

end Facility

end ExpiringStore
