import ExpiringStore.Proofs.Call.Habits

/-!
# Calls outside

Apart from starting the store, operations on entries touch neither gates nor the engine: they stay
outside.  They fail for want of an engine only if an attempt at a transaction was answered so, or
starting was.

    plain (x >>= f)   ←   plain x and every plain (f a)      (plain_bind)
    plain (call.program c)                                   (Call.plain_program)
-/

namespace ExpiringStore

variable {τ α β : Type}

namespace Operation

open Standing

/-- Begins and ends outside, whatever it was told before. -/
def Plain (x : Operation τ α) : Prop :=
  ∀ denied, Abides rule (At .outside false) (Fails .outside false) x ⟨.outside, false, denied⟩

theorem plain_pure (a : α) : Plain (pure a : Operation τ α) := fun _ => ⟨rfl, rfl⟩

theorem plain_throw {f : Failure} (other : f.isUninitialized = false) :
    Plain (throw f : Operation τ α) :=
  fun _ => ⟨⟨rfl, rfl⟩, fun h => absurd h (by rw [other]; exact Bool.false_ne_true)⟩

theorem plain_bind {x : Operation τ α} {f : α → Operation τ β} (hx : Plain x)
    (hf : ∀ a, Plain (f a)) : Plain (x >>= f) := by
  intro denied
  refine (abides_bind x f).2 ((hx denied).mono ?_ fun _ _ h => h)
  rintro ⟨stage, setting, denied⟩ a ⟨rfl, rfl⟩
  exact hf a denied

/-- An effect that is not about the engine or a gate, and answers no failure. -/
theorem plain_aside {e : Effect τ} (aside : e.isAside = true) : Plain (perform e) := by
  intro denied
  cases e with
  | pause | log | recallSize | bookkeep | listeners | notify => exact ⟨trivial, fun _ => ⟨rfl, rfl⟩⟩
  | readClock | attempt | gate | engine | sweeper | noteRunning => cases aside

theorem plain_readClock : Plain (readClock : Operation τ τ) := by
  intro denied
  refine ⟨trivial, fun r => ?_⟩
  cases r with
  | ok now => exact ⟨rfl, rfl⟩
  | error f =>
    refine ⟨⟨rfl, rfl⟩, fun h => ?_⟩
    show (denied || f.isUninitialized) = true
    rw [h, Bool.or_true]

theorem plain_startup (c : Config τ) : Plain (startup c) := fun _ => abides_startup c

/-- What an attempt answers is told as it is, unless it is met. -/
theorem plain_attempt {t : Transaction τ} {meet : Fault → Operation τ t.Reply}
    (hmeet : ∀ f, Plain (meet f)) : Plain (perform (.attempt t) >>= settle meet) := by
  intro denied
  refine (abides_ask _).2 ⟨trivial, fun r => ?_⟩
  cases r with
  | ok r => exact ⟨rfl, rfl⟩
  | error f =>
    cases f with
    | complaint x =>
      refine ⟨⟨rfl, rfl⟩, fun h => ?_⟩
      show (denied || Failure.isUninitialized (.complaint x)) = true
      rw [h, Bool.or_true]
    | fault f =>
      show Abides rule _ _ (if _ then _ else _) _
      split
      · exact ⟨⟨rfl, rfl⟩, nofun⟩
      · exact hmeet f _
    | _ => exact ⟨⟨rfl, rfl⟩, nofun⟩

/-- A step whose complaints are only logged keeps no complaint to itself that is not logged. -/
theorem plain_bestEffort (event : String) (key : Key) {x : Operation τ α} (hx : Plain x) :
    Plain (bestEffort event key x) := by
  intro denied
  refine (abides_tryCatch _ _).2 ((abides_map _ _).2 ((hx denied).mono (fun _ _ h => h) ?_))
  rintro ⟨stage, setting, denied⟩ f ⟨⟨rfl, rfl⟩, -⟩
  cases f with
  | complaint x => exact plain_bind (plain_aside rfl) (fun _ => plain_pure none) denied
  | _ => exact plain_throw rfl denied

theorem habit_plain : Habit fun {_} (x : Operation τ _) => Plain x where
  done := plain_pure
  fail := plain_throw
  bind := plain_bind
  aside := plain_aside
  clock := plain_readClock
  start := plain_startup
  attempt := plain_attempt
  attended := plain_bestEffort

end Operation

/-- Every call begins and ends outside. -/
theorem Call.plain_program [Instant τ] [Delay τ] (c : Config τ) (call : Call) :
    Operation.Plain (call.program c) := Operation.habit_plain.of_program c call

end ExpiringStore
