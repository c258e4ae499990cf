import ExpiringStore.Proofs.Gate.Visit
import ExpiringStore.Proofs.Lifecycle.Facility

/-!
# Callers at one gate

Any number of callers visit a gate, and one of them goes on at a time.  The lock of the gate is
given to them in the order in which they asked for it: whoever finds it held, or others waiting,
waits at the end of the queue.  How a run ends is left open.

    turn i r       caller i goes on; if its run is in progress, that ends in r
    play moves     callers arrive and go on
    chart          a passage by the spots of its callers

What remains of the visits of all callers is told by their spots, so that every turn of a passage is
one of the twelve turns of its chart (move_passage).
-/

namespace ExpiringStore

/-- What happens to the runs behind a gate. -/
inductive RunEvent (ε : Type) where
  | began (i : Nat)
  | ended (i : Nat) (r : Except ε Unit)

/-- A caller at a gate: what remains of its visit, and whether its run is in progress. -/
structure Visitor (ε : Type) where
  rest : GateVisit ε (Except ε Unit) := .ensure
  isRunning : Bool := false

def Visitor.result? {ε : Type} (v : Visitor ε) : Option (Except ε Unit) :=
  match v.rest with
  | .done r => some r
  | _ => none

/-- A gate with those who visit it. -/
structure Passage (ε : Type) where
  gate : Gatehouse := {}
  /-- Those who wait for the lock, in the order in which they asked for it. -/
  queue : List Nat := []
  visitors : List (Visitor ε) := []
  /-- In the order in which it happened. -/
  history : List (RunEvent ε) := []

/-- One who visits a gate arrives there, or goes on. -/
inductive GateMove (ε : Type) where
  | arrive
  | turn (i : Nat) (r : Except ε Unit)

namespace Passage

variable {ε : Type} (s : Passage ε)

/-- Is the lock free, and does nobody else wait for it first? -/
def mayLock (i : Nat) : Bool := s.gate.holder.isNone && s.queue.head?.all (· == i)

/-- One of the callers goes on, unless it has ended or waits for the lock. -/
def goOn (i : Nat) (r : Except ε Unit) (v : Visitor ε) : Option (Passage ε) :=
  match v.rest with
  | .done _ => none
  | .step .lock next =>
    if s.mayLock i then
      some { s with
        gate := s.gate.after i .lock
        queue := s.queue.tail
        visitors := s.visitors.set i { rest := next true } }
    else if i ∈ s.queue then none
    else some { s with queue := s.queue ++ [i] }
  | .step g next =>
    some { s with
      gate := s.gate.after i g
      visitors := s.visitors.set i { rest := next (Rehearsal.stepGate s.gate.isOpen g).1 } }
  | .setUp next =>
    if v.isRunning then
      some { s with
        visitors := s.visitors.set i { rest := next r }
        history := s.history ++ [.ended i r] }
    else
      some { s with
        visitors := s.visitors.set i { v with isRunning := true }
        history := s.history ++ [.began i] }

/-- The caller of a number goes on. -/
def turn (i : Nat) (r : Except ε Unit) : Option (Passage ε) := s.visitors[i]?.bind (s.goOn i r)

def move : GateMove ε → Option (Passage ε)
  | .arrive => some { s with visitors := s.visitors ++ [{}] }
  | .turn i r => s.turn i r

def play (s : Passage ε) : List (GateMove ε) → Option (Passage ε)
  | [] => some s
  | m :: rest => (s.move m).bind (·.play rest)

/-- How the visit of a caller has ended. -/
def result? (i : Nat) : Option (Except ε Unit) := s.visitors[i]?.bind Visitor.result?

/-- Has every visit ended? -/
def Finished : Prop := ∀ v ∈ s.visitors, v.result?.isSome = true

/-- The passages that are reached from a closed gate that nobody has visited. -/
def Reachable : Prop := ∃ moves, play {} moves = some s

end Passage

/-! ## Charts -/

/-- A gate with those who visit it, by their spots. -/
structure Chart (ε : Type) where
  gate : Gatehouse := {}
  queue : List Nat := []
  spots : List (Spot ε) := []
  history : List (RunEvent ε) := []

def Spot.visitor {ε : Type} (p : Spot ε) : Visitor ε where
  rest := p.rest
  isRunning :=
    match p with
    | .running => true
    | _ => false

namespace Chart

variable {ε : Type}

def passage (x : Chart ε) : Passage ε := ⟨x.gate, x.queue, x.spots.map Spot.visitor, x.history⟩

/-- A caller has got to another spot. -/
def put (x : Chart ε) (i : Nat) (p : Spot ε) : Chart ε := { x with spots := x.spots.set i p }

/-- A caller is at a spot. -/
def At (x : Chart ε) (i : Nat) (p : Spot ε) : Prop := x.spots[i]? = some p

/-- A caller goes on from its spot. -/
inductive Turn (x : Chart ε) (i : Nat) : Except ε Unit → Chart ε → Prop
  | passes {r : Except ε Unit} (spot : x.At i .arriving) (isOpen : x.gate.isOpen = true) :
      Turn x i r (x.put i (.gone (.ok ())))
  | asks {r : Except ε Unit} (spot : x.At i .arriving) (shut : x.gate.isOpen = false) :
      Turn x i r (x.put i .asking)
  | locks {r : Except ε Unit} (spot : x.At i .asking) (free : x.gate.holder = none)
      (first : ∀ j ∈ x.queue.head?, j = i) :
      Turn x i r { x.put i .checking with
        gate := { x.gate with holder := some i }
        queue := x.queue.tail }
  | waits {r : Except ε Unit} (spot : x.At i .asking) (new : i ∉ x.queue)
      (others : ¬(x.gate.holder = none ∧ ∀ j ∈ x.queue.head?, j = i)) :
      Turn x i r { x with queue := x.queue ++ [i] }
  | yields {r : Except ε Unit} (spot : x.At i .checking) (isOpen : x.gate.isOpen = true) :
      Turn x i r (x.put i (.leaving (.ok ())))
  | prepares {r : Except ε Unit} (spot : x.At i .checking) (shut : x.gate.isOpen = false) :
      Turn x i r (x.put i .ready)
  | begins {r : Except ε Unit} (spot : x.At i .ready) :
      Turn x i r { x.put i .running with history := x.history ++ [.began i] }
  | succeeds (spot : x.At i .running) :
      Turn x i (.ok ()) { x.put i .opening with history := x.history ++ [.ended i (.ok ())] }
  | fails {e : ε} (spot : x.At i .running) :
      Turn x i (.error e)
        { x.put i (.leaving (.error e)) with history := x.history ++ [.ended i (.error e)] }
  | opens {r : Except ε Unit} (spot : x.At i .opening) :
      Turn x i r { x.put i (.leaving (.ok ())) with gate := { x.gate with isOpen := true } }
  | leaves {r : Except ε Unit} {a : Except ε Unit} (spot : x.At i (.leaving a)) :
      Turn x i r { x.put i (.gone a) with gate := { x.gate with holder := none } }

/-- One who visits a gate arrives there, or goes on. -/
inductive Moves (x : Chart ε) : GateMove ε → Chart ε → Prop
  | arrive : Moves x .arrive { x with spots := x.spots ++ [.arriving] }
  | turn {i : Nat} {r : Except ε Unit} {x' : Chart ε} (h : x.Turn i r x') : Moves x (.turn i r) x'

/-- Some moves after one another. -/
inductive Plays : List (GateMove ε) → Chart ε → Chart ε → Prop
  | nil (x : Chart ε) : Plays [] x x
  | cons {m : GateMove ε} {rest : List (GateMove ε)} {x x' x'' : Chart ε} (h : x.Moves m x')
      (hrest : Plays rest x' x'') : Plays (m :: rest) x x''

variable {x : Chart ε} {i : Nat} {r : Except ε Unit} {s' : Passage ε} {p : Spot ε}

/-! ## Charts of passages -/

/-- A turn that puts a caller on another spot shows in the passage. -/
theorem Turn.shows {gate : Gatehouse} {queue : List Nat} {history : List (RunEvent ε)}
    {v : Visitor ε} (turn : x.Turn i r ⟨gate, queue, x.spots.set i p, history⟩)
    (hv : v = p.visitor) (hs : s' = ⟨gate, queue, x.passage.visitors.set i v, history⟩) :
    ∃ x', s' = x'.passage ∧ x.Turn i r x' := by
  refine ⟨_, ?_, turn⟩
  subst hv hs
  unfold passage
  rw [List.map_set]

theorem mayLock_iff : x.passage.mayLock i = true ↔
    x.gate.holder = none ∧ ∀ j ∈ x.queue.head?, j = i := by
  unfold Passage.mayLock
  rw [Bool.and_eq_true, Option.isNone_iff_eq_none]
  show x.gate.holder = none ∧ x.queue.head?.all (· == i) = true ↔ _
  cases x.queue.head? <;> simp

theorem getElem?_visitors : x.passage.visitors[i]? = x.spots[i]?.map Spot.visitor :=
  List.getElem?_map

/-- One who goes on from its spot takes one of the turns. -/
theorem goOn_cases (spot : x.At i p) (h : x.passage.goOn i r p.visitor = some s') :
    ∃ x', s' = x'.passage ∧ x.Turn i r x' := by
  cases p with
  | arriving =>
    have hgoes : x.passage.goOn i r Spot.arriving.visitor = some { x.passage with
        visitors := x.passage.visitors.set i
          { rest := if x.gate.isOpen then .done (.ok ()) else .asking } } := by
      show x.passage.goOn i r ⟨.ensure, false⟩ = _
      rw [GateVisit.ensure_eq]
      rfl
    have hs := Option.some.inj (hgoes.symm.trans h)
    cases hgate : x.gate.isOpen with
    | true => exact (Turn.passes spot hgate).shows rfl (by rw [← hs, hgate]; rfl)
    | false => exact (Turn.asks spot hgate).shows rfl (by rw [← hs, hgate]; rfl)
  | asking =>
    have hgoes : x.passage.goOn i r Spot.asking.visitor =
        if x.passage.mayLock i then
          some { x.passage with
            gate := x.gate.after i .lock
            queue := x.queue.tail
            visitors := x.passage.visitors.set i { rest := .checking } }
        else if i ∈ x.queue then none
        else some { x.passage with queue := x.queue ++ [i] } := rfl
    rw [hgoes] at h
    split at h
    · next hmay =>
      obtain ⟨free, first⟩ := mayLock_iff.1 hmay
      exact (Turn.locks spot free first).shows rfl (Option.some.inj h).symm
    · next hbusy =>
      split at h
      · cases h
      · next new =>
        exact ⟨_, (Option.some.inj h).symm, .waits spot new (mt mayLock_iff.2 hbusy)⟩
  | checking =>
    have hgoes : x.passage.goOn i r Spot.checking.visitor = some { x.passage with
        visitors := x.passage.visitors.set i
          { rest := if x.gate.isOpen then .leaving (.ok ()) else .setUp GateVisit.afterRun } } :=
  rfl
    have hs := Option.some.inj (hgoes.symm.trans h)
    cases hgate : x.gate.isOpen with
    | true => exact (Turn.yields spot hgate).shows rfl (by rw [← hs, hgate]; rfl)
    | false => exact (Turn.prepares spot hgate).shows rfl (by rw [← hs, hgate]; rfl)
  | ready => exact (Turn.begins spot).shows rfl (Option.some.inj h).symm
  | running =>
    rcases r with e | ⟨⟩
    · exact (Turn.fails spot).shows rfl (Option.some.inj h).symm
    · exact (Turn.succeeds spot).shows rfl (Option.some.inj h).symm
  | opening => exact (Turn.opens spot).shows rfl (Option.some.inj h).symm
  | leaving a => exact (Turn.leaves spot).shows rfl (Option.some.inj h).symm
  | gone a => cases h

theorem move_cases {m : GateMove ε} (h : x.passage.move m = some s') :
    ∃ x', s' = x'.passage ∧ x.Moves m x' := by
  cases m with
  | arrive =>
    refine ⟨_, ?_, .arrive⟩
    obtain rfl := Option.some.inj h
    show _ = passage _
    unfold passage
    rw [List.map_append]
    rfl
  | turn i r =>
    obtain ⟨v, hv, hgoes⟩ := Option.bind_eq_some_iff.1 h
    rw [getElem?_visitors] at hv
    obtain ⟨p, spot, rfl⟩ := Option.map_eq_some_iff.1 hv
    obtain ⟨x', hs, hturn⟩ := goOn_cases spot hgoes
    exact ⟨x', hs, .turn hturn⟩

/-- What is played in a passage is played on its chart. -/
theorem play_cases {moves : List (GateMove ε)} (h : x.passage.play moves = some s') :
    ∃ x', s' = x'.passage ∧ Plays moves x x' := by
  induction moves generalizing x with
  | nil => exact ⟨x, (Option.some.inj h).symm, .nil x⟩
  | cons m rest ih =>
    obtain ⟨s, hmove, hrest⟩ := Option.bind_eq_some_iff.1 h
    obtain ⟨x₁, rfl, hmoves⟩ := move_cases hmove
    obtain ⟨x', hs, hplays⟩ := ih hrest
    exact ⟨x', hs, .cons hmoves hplays⟩

end Chart

end ExpiringStore
