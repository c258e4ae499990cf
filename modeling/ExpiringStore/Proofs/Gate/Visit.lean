import ExpiringStore.Store.Lifecycle

/-!
# Visits to a gate

A visit is what a caller does at a gate, with the run that sets up what is behind it left open: how
that run ends is an answer like those of the gate.  Between two answers a caller does nothing, so
that these are all the places where others can come between.

    ensure             the visit of a caller that passes the gate
    arriving, asking, checking, ready, running, opening, going, gone
                       the spots where it can be
    ensure with the steps of a gate and a run in it   =   Gate.pass           (run_pass)
-/

namespace ExpiringStore

/-- A computation that takes steps at a gate and may set up what is behind it. -/
inductive GateVisit (ε α : Type) where
  | done (a : α)
  | step (s : GateStep) (next : Bool → GateVisit ε α)
  | setUp (next : Except ε Unit → GateVisit ε α)

namespace GateVisit

variable {ε α β : Type}

def bind : GateVisit ε α → (α → GateVisit ε β) → GateVisit ε β
  | .done a, f => f a
  | .step s next, f => .step s fun b => (next b).bind f
  | .setUp next, f => .setUp fun r => (next r).bind f

instance : Monad (GateVisit ε) where
  pure := .done
  bind := bind

/-- Passes a gate: whether it fails, and how, is what the run has come to. -/
def ensure : GateVisit ε (Except ε Unit) :=
  ExceptT.run (Gate.pass (m := ExceptT ε (GateVisit ε)) (ε := ε)
    (fun s => ExceptT.lift (.step s .done)) (ExceptT.mk (.setUp .done)))

/-! ## What remains of it -/

/-- The lock is given back, and the visit ends. -/
def leaving (r : Except ε Unit) : GateVisit ε (Except ε Unit) := .step .unlock fun _ => .done r

def opening : GateVisit ε (Except ε Unit) := .step .unbar fun _ => leaving (.ok ())

def afterRun : Except ε Unit → GateVisit ε (Except ε Unit)
  | .ok _ => opening
  | .error e => leaving (.error e)

/-- The second look, with the lock. -/
def checking : GateVisit ε (Except ε Unit) :=
  .step .look fun isOpen => if isOpen then leaving (.ok ()) else .setUp afterRun

def asking : GateVisit ε (Except ε Unit) := .step .lock fun _ => checking

theorem ensure_eq : (ensure : GateVisit ε (Except ε Unit)) =
    .step .look fun isOpen => if isOpen then .done (.ok ()) else asking := by
  refine congrArg (GateVisit.step .look) (funext fun isOpen => ?_)
  cases isOpen with
  | true => rfl
  | false =>
    refine congrArg (GateVisit.step .lock) (funext fun _ => congrArg (GateVisit.step .look) ?_)
    funext isOpen
    cases isOpen with
    | true => rfl
    | false => exact congrArg GateVisit.setUp (funext fun r => by cases r <;> rfl)

/-! ## The gates of a store -/

/-- A visit whose steps and whose run are programs of a store. -/
def within {τ : Type} (answer : GateStep → Program τ Bool) (x : Program τ (Except ε Unit)) :
    GateVisit ε α → Program τ α
  | .done a => .done a
  | .step s next => answer s >>= fun b => (next b).within answer x
  | .setUp next => x >>= fun r => (next r).within answer x

/-- Whoever passes a gate of a store visits it, with a run that is what sets it up. -/
theorem run_pass {τ : Type} (g : GateName) (x : Operation τ Unit) :
    ExceptT.run (Gate.pass (ε := Failure) (Operation.atGate g) x) =
      ensure.within (fun s => .ask (.gate g s) .done) (ExceptT.run x) := by
  rw [ensure_eq]
  refine congrArg (Program.ask (.gate g .look)) (funext fun isOpen => ?_)
  cases (isOpen : Bool) with
  | true => rfl
  | false =>
    refine congrArg (Program.ask (.gate g .lock)) (funext fun _ =>
      congrArg (Program.ask (.gate g .look)) (funext fun isOpen => ?_))
    cases (isOpen : Bool) with
    | true => rfl
    | false =>
      show (ExceptT.run x >>= _) >>= _ = ExceptT.run x >>= _
      rw [Program.bind_assoc]
      exact congrArg (ExceptT.run x >>= ·) (funext fun r => by cases r <;> rfl)

end GateVisit

/-! ## Where a caller can be -/

/-- Where the visit of a caller has got to. -/
inductive Spot (ε : Type) where
  /-- It has not looked at the gate yet. -/
  | arriving
  /-- It saw the gate closed and asks for the lock. -/
  | asking
  /-- It has the lock and has not looked again. -/
  | checking
  /-- It saw the gate closed again and has not begun a run. -/
  | ready
  /-- Its run is in progress. -/
  | running
  /-- Its run has succeeded and the gate is not open yet. -/
  | opening
  /-- It gives the lock back, and ends so. -/
  | leaving (r : Except ε Unit)
  | gone (r : Except ε Unit)

namespace Spot

variable {ε : Type}

def rest : Spot ε → GateVisit ε (Except ε Unit)
  | .arriving => .ensure
  | .asking => .asking
  | .checking => .checking
  | .ready | .running => .setUp GateVisit.afterRun
  | .opening => .opening
  | .leaving r => .leaving r
  | .gone r => .done r

end Spot

end ExpiringStore
