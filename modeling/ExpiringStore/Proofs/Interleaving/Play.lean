import ExpiringStore.Proofs.Interleaving.Basic

/-!
# Interleavings that are played

A list of moves says who goes on and when the clock advances.  It is played with a database that
works, a store that has started, and no listeners; what is played is a run of steps.

    Steps s (play moves s)      (play_steps)
-/

namespace ExpiringStore

variable {τ : Type} [Instant τ]

/-- The answer to an effect, and the table after it, where nothing fails that need not. -/
def Effect.answer (clock : τ) (t : Table τ) : (e : Effect τ) → e.Reply × Table τ
  | .readClock => (.ok clock, t)
  | .attempt a =>
    match a.commit t with
    | .ok (r, t') => (.ok r, t')
    | .error f => (.error f, t)
  | .pause _ => ((), t)
  | .log _ => ((), t)
  | .recallSize => ({}, t)
  | .bookkeep _ => ((), t)
  | .listeners => ([], t)
  | .notify _ _ => (none, t)
  | .gate _ _ => (true, t)
  | .engine .start => (.ok false, t)
  | .engine .isOpen => (true, t)
  | .engine .dialect => (some "sqlite", t)
  | .engine .hasTable => (.ok true, t)
  | .engine .makeTable => (.ok true, t)
  | .engine .dispose => ((), t)
  | .engine .release => ((), t)
  | .sweeper _ => ((), t)
  | .noteRunning _ => ((), t)

theorem Effect.answer_ok {clock : τ} {t t' : Table τ} {a : Transaction τ} {r : a.Reply}
    (h : a.commit t = .ok (r, t')) : (Effect.attempt a).answer clock t = (.ok r, t') := by
  show (match a.commit t with | .ok (r, t') => _ | .error f => _) = _
  rw [h]

theorem Effect.answer_error {clock : τ} {t : Table τ} {a : Transaction τ} {f : Failure}
    (h : a.commit t = .error f) : (Effect.attempt a).answer clock t = (.error f, t) := by
  show (match a.commit t with | .ok (r, t') => _ | .error f => _) = _
  rw [h]

def Effect.record (i : Nat) (clock : τ) (t : Table τ) : (e : Effect τ) → e.Reply → List (Commit τ)
  | .attempt a, .ok r => [⟨i, clock, t, a, r⟩]
  | _, _ => []

/-- What is decided of an interleaving. -/
inductive Move (τ : Type) where
  /-- The clock advances; it never goes back. -/
  | tick (now : τ)
  | call (c : Config τ) (call : Call)
  /-- A caller goes on by so many effects, if its call has so many. -/
  | act (caller steps : Nat)

/-- A store with default settings, which counts in whole seconds. -/
def Config.plain : Config Int where
  allowNull := false
  autoCreate := true
  backgroundCleanup := false
  defaultTtl := none
  sizeWindow := 5
  retry := ⟨3, 1, 2, 2⟩
  ownsDatabase := true

namespace System

variable {τ : Type} [OrderedInstant τ]

/-- A caller goes on by one effect. -/
def act (i : Nat) (s : System τ) : System τ :=
  match s.callers[i]? with
  | none => s
  | some caller =>
    match caller.rest with
    | .done _ => s
    | .ask e next =>
      let (r, t) := e.answer s.clock s.table
      { s with
        table := t
        callers := s.callers.set i (caller.answered e r (next r))
        commits := s.commits ++ e.record i s.clock s.table r }

/-- A caller goes on by so many effects. -/
def acts (i : Nat) : Nat → System τ → System τ
  | 0, s => s
  | n + 1, s => acts i n (act i s)

variable [Delay τ]

/-- Plays moves in turn. -/
def play : List (Move τ) → System τ → System τ
  | [], s => s
  | .tick now :: rest, s => play rest { s with clock := OrderedInstant.latest s.clock now }
  | .call c call :: rest, s => play rest { s with callers := s.callers ++ [.new c call] }
  | .act i n :: rest, s => play rest (acts i n s)

theorem act_steps (i : Nat) (s : System τ) : Steps s (act i s) := by
  unfold act
  split
  · exact .refl
  · next caller atI =>
    split
    · exact .refl
    · next e next asks =>
      cases e with
      | attempt a =>
        cases hc : a.commit s.table with
        | ok p =>
          rw [Effect.answer_ok hc]
          exact .single (.commit s i caller a next p.1 p.2 atI asks hc)
        | error f =>
          rw [Effect.answer_error hc]
          simp only [Effect.record, List.append_nil]
          exact .single (.answer s i caller (.attempt a) next (.error f) atI asks ⟨f, rfl⟩)
      | readClock =>
        simp only [Effect.record, List.append_nil]
        exact .single (.answer s i caller .readClock next (.ok s.clock) atI asks rfl)
      | engine step =>
        simp only [Effect.record, List.append_nil]
        cases step <;> exact .single (.answer s i caller (.engine _) next _ atI asks trivial)
      | _ =>
        simp only [Effect.record, List.append_nil]
        exact .single (.answer s i caller _ next _ atI asks trivial)

theorem acts_steps (i n : Nat) (s : System τ) : Steps s (acts i n s) := by
  induction n generalizing s with
  | zero => exact .refl
  | succ n ih => exact (act_steps i s).trans (ih (act i s))

/-- What is played is a run of steps. -/
theorem play_steps (moves : List (Move τ)) (s : System τ) : Steps s (play moves s) := by
  induction moves generalizing s with
  | nil => exact .refl
  | cons m rest ih =>
    cases m with
    | tick now => exact .head (.tick s _ (OrderedInstant.le_latest _ _)) (ih _)
    | call c call => exact .head (.call s c call) (ih _)
    | act i n => exact (acts_steps i n s).trans (ih _)

theorem play_reachable (moves : List (Move τ)) (t : Table τ) (clock : τ) :
    Reachable t (play moves (start t clock)) := ⟨clock, play_steps moves _⟩

end System

end ExpiringStore
