import ExpiringStore.Proofs.Attempt.Executor
import ExpiringStore.Proofs.Program.Parts

/-!
# Attempts of programs

The transactions that a program attempts as it is carried out, those that fail among them.  What is
not permitted to attempt anything attempts nothing, and a transaction that is carried out at once,
or that fails for reasons of its own, is attempted once.

    attempts (x >>= f)   =   attempts x, and then those of f a if x ends with a   (attempts_bind)
    permitted nothing    →   attempts nothing                                     (attempts_nothing)
    transact c a         attempts a, and answers what it is answered              (carried_transact)
-/

namespace ExpiringStore

def Effect.attempt? {τ : Type} : Effect τ → Option (Transaction τ)
  | .attempt a => some a
  | _ => none

namespace Program

variable {τ σ α β : Type} (handle : (e : Effect τ) → σ → e.Reply × σ)

def attempts : Program τ α → σ → List (Transaction τ)
  | .done _, _ => []
  | .ask e next, s => e.attempt?.toList ++ (next (handle e s).1).attempts (handle e s).2

theorem run_bind (x : Program τ α) (f : α → Program τ β) (s : σ) :
    (x >>= f).run handle s = (f (x.run handle s).1).run handle (x.run handle s).2 := by
  induction x generalizing s with
  | done a => rfl
  | ask e next ih => exact ih (handle e s).1 (handle e s).2

theorem attempts_bind (x : Program τ α) (f : α → Program τ β) (s : σ) :
    (x >>= f).attempts handle s =
      x.attempts handle s ++ (f (x.run handle s).1).attempts handle (x.run handle s).2 := by
  induction x generalizing s with
  | done a => rfl
  | ask e next ih =>
    exact (congrArg _ (ih (handle e s).1 (handle e s).2)).trans (List.append_assoc _ _ _).symm

/-- What is permitted nothing attempts nothing. -/
theorem attempts_nothing {ends : Past τ → α → Prop} {x : Program τ α} {p : Past τ}
    (h : x.Follows (fun _ _ => False) ends p) (s : σ) : x.attempts handle s = [] := by
  induction x generalizing p s with
  | done a => rfl
  | ask e next ih =>
    have hnone : e.attempt? = none := by
      cases e with
      | attempt a => exact h.1.elim
      | _ => rfl
    unfold attempts
    rw [hnone, ih _ (h.2 _)]
    rfl

end Program

namespace Operation

variable {τ σ α β : Type} {handle : (e : Effect τ) → σ → e.Reply × σ} {s s' : σ}

theorem run_perform_bind (e : Effect τ) (f : e.Reply → Operation τ α) :
    (ExceptT.run (perform e >>= f)).run handle s =
      (ExceptT.run (f (handle e s).1)).run handle (handle e s).2 := rfl

/-- An operation is carried out: what it attempts, answers and leaves. -/
structure Carried (handle : (e : Effect τ) → σ → e.Reply × σ) (x : Operation τ α) (s : σ)
    (attempts : List (Transaction τ)) (r : Except Failure α) (s' : σ) : Prop where
  attempts : (ExceptT.run x).attempts handle s = attempts
  run : (ExceptT.run x).run handle s = (r, s')

namespace Carried

variable {x : Operation τ α} {f : α → Operation τ β} {first second : List (Transaction τ)}

theorem bind_ok {a : α} {s'' : σ} {r : Except Failure β}
    (h : Carried handle x s first (.ok a) s') (hf : Carried handle (f a) s' second r s'') :
    Carried handle (x >>= f) s (first ++ second) r s'' where
  attempts := by
    refine (Program.attempts_bind handle (ExceptT.run x) (ExceptT.bindCont f) s).trans ?_
    rw [h.attempts, h.run]
    exact congrArg _ hf.attempts
  run := by
    refine (Program.run_bind handle (ExceptT.run x) (ExceptT.bindCont f) s).trans ?_
    rw [h.run]
    exact hf.run

theorem bind_error {failure : Failure} (h : Carried handle x s first (.error failure) s') :
    Carried handle (x >>= f) s first (.error failure) s' where
  attempts := by
    refine (Program.attempts_bind handle (ExceptT.run x) (ExceptT.bindCont f) s).trans ?_
    rw [h.attempts, h.run]
    exact List.append_nil _
  run := by
    refine (Program.run_bind handle (ExceptT.run x) (ExceptT.bindCont f) s).trans ?_
    rw [h.run]
    rfl

theorem map {r : Except Failure α} (h : Carried handle x s first r s') (g : α → β) :
    Carried handle (g <$> x) s first (r.map g) s' := by
  rw [map_eq_pure_bind]
  cases r with
  | error f => exact h.bind_error
  | ok a =>
    have hpure : Carried handle (pure (g a) : Operation τ β) s' [] (.ok (g a)) s' := ⟨rfl, rfl⟩
    rw [← List.append_nil first]
    exact h.bind_ok (f := fun a => pure (g a)) hpure

end Carried

theorem carried_ofExcept (r : Except Failure α) :
    Carried handle (ofExcept r : Operation τ α) s [] r s := ⟨rfl, rfl⟩

/-- What attempts nothing is carried out somehow. -/
theorem carried_quietly {x : Operation τ α} {ok : Past τ → α → Prop} {bad : Past τ → Failure → Prop}
    {p : Past τ} (h : Follows (fun _ _ => False) ok bad x p) :
    Carried handle x s [] ((ExceptT.run x).run handle s).1 ((ExceptT.run x).run handle s).2 :=
  ⟨Program.attempts_nothing handle h s, rfl⟩

variable [Instant τ] [Delay τ] {a : Transaction τ}

/-- A transaction whose first attempt is no fault of the storage is attempted once. -/
theorem carried_transact (c : Config τ) (operation : String) (key : Option Key)
    {r : Except Failure a.Reply} (answer : handle (.attempt a) s = (r, s'))
    (settled : ∀ f, r = .error f → f.isForeign = true) :
    Carried handle (transact c operation a key) s [a] r s' := by
  have hattempt : Carried handle (perform (.attempt a)) s [a] (.ok r) s' :=
    ⟨rfl, congrArg (fun p : Except Failure a.Reply × σ => (Except.ok p.1, p.2)) answer⟩
  unfold transact
  rw [transactFrom_eq]
  refine hattempt.bind_ok ?_
  cases r with
  | ok r => exact ⟨rfl, rfl⟩
  | error f =>
    rw [settle_foreign (settled f rfl)]
    exact ⟨rfl, rfl⟩

end Operation

end ExpiringStore
