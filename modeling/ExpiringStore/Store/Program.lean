import ExpiringStore.Store.Effect

/-!
# Programs

A program is finished, or asks for an effect and goes on with the answer.
`run` carries a program out with a handler for its effects; `runUntil` may stop
in front of an effect, and then the rest of the program is what remains.

    run handle (ask e next) s   =   run handle (next r) s'    where handle e s = (r, s')
-/

namespace ExpiringStore

/-- A computation that asks for effects. -/
inductive Program (τ α : Type) where
  | done (a : α)
  | ask (e : Effect τ) (next : e.Reply → Program τ α)

namespace Program

variable {τ α β σ ι : Type}

def bind : Program τ α → (α → Program τ β) → Program τ β
  | .done a, f => f a
  | .ask e next, f => .ask e fun r => (next r).bind f

instance : Monad (Program τ) where
  pure := .done
  bind := bind

@[simp] theorem pure_eq_done (a : α) : (pure a : Program τ α) = .done a := rfl

@[simp] theorem done_bind (a : α) (f : α → Program τ β) : (done a >>= f) = f a := rfl

@[simp] theorem ask_bind (e : Effect τ) (next : e.Reply → Program τ α) (f : α → Program τ β) :
    (ask e next >>= f) = .ask e fun r => next r >>= f := rfl

theorem bind_done (p : Program τ α) : (p >>= .done) = p := by
  induction p with
  | done a => rfl
  | ask e next ih => exact congrArg (ask e) (funext ih)

theorem bind_assoc {γ : Type} (p : Program τ α) (f : α → Program τ β) (g : β → Program τ γ) :
    (p >>= f) >>= g = p >>= fun a => f a >>= g := by
  induction p with
  | done a => rfl
  | ask e next ih => exact congrArg (ask e) (funext ih)

instance : LawfulMonad (Program τ) :=
  LawfulMonad.mk' (Program τ) (fun p => bind_done p) (fun _ _ => rfl)
    (fun p f g => bind_assoc p f g)

/-- Carries a program out with a handler for its effects. -/
def run (handle : (e : Effect τ) → σ → e.Reply × σ) : Program τ α → σ → α × σ
  | .done a, s => (a, s)
  | .ask e next, s =>
    let (r, s) := handle e s
    (next r).run handle s

/-- How far a program got. -/
inductive Outcome (τ σ ι α : Type) where
  | finished (a : α) (s : σ)
  | held (why : ι) (rest : Program τ α) (s : σ)

/-- Carries a program out up to the first effect that there is a reason not to answer. -/
def runUntil (reason? : Effect τ → σ → Option ι) (handle : (e : Effect τ) → σ → e.Reply × σ) :
    Program τ α → σ → Outcome τ σ ι α
  | .done a, s => .finished a s
  | .ask e next, s =>
    match reason? e s with
    | some why => .held why (.ask e next) s
    | none =>
      let (r, s) := handle e s
      (next r).runUntil reason? handle s

end Program

/-- An operation of the store: a program that may fail. -/
abbrev Operation (τ α : Type) := ExceptT Failure (Program τ) α

namespace Operation

variable {τ α : Type}

/-- Asks for one effect. -/
def perform (e : Effect τ) : Operation τ e.Reply := ExceptT.lift (.ask e .done)

def readClock : Operation τ τ := ExceptT.mk (.ask .readClock .done)

def log (entry : Log.Entry) : Operation τ Unit := perform (.log entry)

/-- Changes what the store remembers. -/
def bookkeep (b : Bookkeeping τ) : Operation τ Unit := perform (.bookkeep b)

/-- What has been decided without any effect. -/
def ofExcept (r : Except Failure α) : Operation τ α := ExceptT.mk (.done r)

end Operation

end ExpiringStore
