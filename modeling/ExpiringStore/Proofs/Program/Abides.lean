import ExpiringStore.Store.Program

/-!
# Programs and rules

A rule says where a program stands: which effects are permitted there, and where each answer leads.
A program abides by a rule if, whatever it is answered, it asks only for what is permitted where it
stands, and ends as it is to.

    abides (x >>= f)       ↔   abides x, ending where abides (f a) begins             (abides_bind)
    abides (e; f)          ↔   e is permitted, and f goes on from every answer         (abides_ask)
-/

namespace ExpiringStore

/-- What is permitted to those who stand somewhere, and where answers lead them. -/
structure Rule (τ σ : Type) where
  permits : σ → Effect τ → Prop
  after : σ → (e : Effect τ) → e.Reply → σ

/-- From a place on, a program asks only for what is permitted, and ends as it is to. -/
def Program.Abides {τ σ α : Type} (rule : Rule τ σ) (ends : σ → α → Prop) :
    Program τ α → σ → Prop
  | .done a, s => ends s a
  | .ask e next, s => rule.permits s e ∧ ∀ r, (next r).Abides rule ends (rule.after s e r)

namespace Program

variable {τ σ α β : Type} {rule : Rule τ σ}

theorem abides_bind {ends : σ → β → Prop} (x : Program τ α) (f : α → Program τ β) (s : σ) :
    (x >>= f).Abides rule ends s ↔
      x.Abides rule (fun s a => (f a).Abides rule ends s) s := by
  induction x generalizing s with
  | done a => rfl
  | ask e next ih => exact and_congr Iff.rfl (forall_congr' fun r => ih r _)

theorem Abides.mono {ends ends' : σ → α → Prop} (hends : ∀ s a, ends s a → ends' s a)
    {x : Program τ α} {s : σ} (h : x.Abides rule ends s) : x.Abides rule ends' s := by
  induction x generalizing s with
  | done a => exact hends s a h
  | ask e next ih => exact ⟨h.1, fun r => ih r (h.2 r)⟩

theorem abides_congr {ends ends' : σ → α → Prop} (hends : ∀ s a, ends s a ↔ ends' s a)
    (x : Program τ α) (s : σ) : x.Abides rule ends s ↔ x.Abides rule ends' s :=
  ⟨Abides.mono fun s a => (hends s a).1, Abides.mono fun s a => (hends s a).2⟩

end Program

namespace Operation

variable {τ σ α β : Type} {rule : Rule τ σ} {ok : σ → α → Prop} {bad : σ → Failure → Prop} {s : σ}

/-- The end that is asked for, by success and failure. -/
def EndsAs (ok : σ → α → Prop) (bad : σ → Failure → Prop) (s : σ) : Except Failure α → Prop
  | .ok a => ok s a
  | .error f => bad s f

/-- From a place on, an operation asks only for what is permitted, and ends as it is to. -/
def Abides (rule : Rule τ σ) (ok : σ → α → Prop) (bad : σ → Failure → Prop) (x : Operation τ α)
    (s : σ) : Prop := Program.Abides rule (EndsAs ok bad) (ExceptT.run x) s

theorem Abides.mono {ok' : σ → α → Prop} {bad' : σ → Failure → Prop} {x : Operation τ α}
    (h : x.Abides rule ok bad s) (hok : ∀ s a, ok s a → ok' s a)
    (hbad : ∀ s f, bad s f → bad' s f) : x.Abides rule ok' bad' s := by
  refine Program.Abides.mono ?_ h
  intro s r hr
  cases r with
  | ok a => exact hok s a hr
  | error f => exact hbad s f hr

@[simp] theorem abides_bind {ok : σ → β → Prop} (x : Operation τ α) (f : α → Operation τ β) :
    Abides rule ok bad (x >>= f) s ↔
      Abides rule (fun s a => Abides rule ok bad (f a) s) bad x s := by
  refine (Program.abides_bind (ExceptT.run x) (ExceptT.bindCont f) s).trans ?_
  refine Program.abides_congr (fun s r => ?_) _ s
  cases r <;> rfl

@[simp] theorem abides_map {ok : σ → β → Prop} (g : α → β) (x : Operation τ α) :
    Abides rule ok bad (g <$> x) s ↔ Abides rule (fun s a => ok s (g a)) bad x s := by
  rw [map_eq_pure_bind, abides_bind]
  rfl

@[simp] theorem abides_discard {ok : σ → Unit → Prop} (x : Operation τ α) :
    Abides rule ok bad (discard x) s ↔ Abides rule (fun s _ => ok s ()) bad x s :=
  abides_map (fun _ => ()) x

@[simp] theorem abides_tryCatch (x : Operation τ α) (h : Failure → Operation τ α) :
    Abides rule ok bad (tryCatch x h) s ↔
      Abides rule ok (fun s f => Abides rule ok bad (h f) s) x s := by
  refine (Program.abides_bind (ExceptT.run x) _ s).trans ?_
  refine Program.abides_congr (fun s r => ?_) _ s
  cases r <;> rfl

theorem abides_ask (e : Effect τ) {f : e.Reply → Operation τ α} :
    Abides rule ok bad (perform e >>= f) s ↔
      rule.permits s e ∧ ∀ r, Abides rule ok bad (f r) (rule.after s e r) := Iff.rfl

end Operation

end ExpiringStore
