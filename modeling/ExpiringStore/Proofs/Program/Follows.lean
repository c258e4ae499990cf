import ExpiringStore.Store.Attempt

/-!
# What programs do

The steps of a program that matter to others are its readings of the clock and its committed
transactions.  A program follows a rule if, whatever it is answered, it attempts only what the rule
permits after what it has done so far, and ends as the rule says.

    follows (x >>= f)   ↔   follows x, ending where follows (f a) begins        (follows_bind)
    follows readClock   ↔   every reading is a right end, and so is none        (follows_readClock)
-/

namespace ExpiringStore

/-- A step of a caller that has to do with the clock or with the table. -/
inductive Deed (τ : Type) where
  | read (now : τ)
  | committed (a : Transaction τ) (reply : a.Reply)

/-- What a caller has done so far. -/
structure Past (τ : Type) where
  /-- In the order in which it was done. -/
  deeds : List (Deed τ) := []
  /-- Has no step of the storage failed? -/
  smooth : Bool := true

def EngineStep.succeeded : (step : EngineStep) → step.Reply → Bool
  | .start, .ok _ => true
  | .start, .error _ => false
  | .isOpen, answer => answer
  | .dialect, answer => answer.isSome
  | .hasTable, .ok _ => true
  | .hasTable, .error _ => false
  | .makeTable, .ok _ => true
  | .makeTable, .error _ => false
  | .dispose, _ => true
  | .release, _ => true

namespace Past

variable {τ : Type}

def add (p : Past τ) (d : Deed τ) : Past τ := { p with deeds := p.deeds ++ [d] }

def spoiled (p : Past τ) : Past τ := { p with smooth := false }

def after (p : Past τ) : (e : Effect τ) → e.Reply → Past τ
  | .readClock, .ok now => p.add (.read now)
  | .readClock, .error _ => p.spoiled
  | .attempt a, .ok r => p.add (.committed a r)
  | .attempt _, .error _ => p.spoiled
  | .engine step, r => if step.succeeded r then p else p.spoiled
  | .pause _, _ | .log _, _ | .recallSize, _ | .bookkeep _, _ | .listeners, _ | .notify _ _, _
  | .gate _ _, _ | .sweeper _, _ | .noteRunning _, _ => p

@[simp] theorem add_deeds (p : Past τ) (d : Deed τ) : (p.add d).deeds = p.deeds ++ [d] := rfl

@[simp] theorem add_smooth (p : Past τ) (d : Deed τ) : (p.add d).smooth = p.smooth := rfl

@[simp] theorem spoiled_deeds (p : Past τ) : p.spoiled.deeds = p.deeds := rfl

@[simp] theorem spoiled_smooth (p : Past τ) : p.spoiled.smooth = false := rfl

theorem deeds_after_engine (p : Past τ) (step : EngineStep) (r : step.Reply) :
    (p.after (.engine step) r).deeds = p.deeds := by
  show (if step.succeeded r then p else p.spoiled).deeds = p.deeds
  split <;> rfl

@[simp] theorem spoiled_spoiled (p : Past τ) : p.spoiled.spoiled = p.spoiled := rfl

end Past

/-- Is an effect permitted?  The rule is about transactions. -/
def Effect.Permitted {τ : Type} (permits : List (Deed τ) → Transaction τ → Prop)
    (deeds : List (Deed τ)) : Effect τ → Prop
  | .attempt a => permits deeds a
  | _ => True

/-- From a past on, a program attempts only what is permitted, and ends as it is to. -/
def Program.Follows {τ α : Type} (permits : List (Deed τ) → Transaction τ → Prop)
    (ends : Past τ → α → Prop) : Program τ α → Past τ → Prop
  | .done a, p => ends p a
  | .ask e next, p => e.Permitted permits p.deeds ∧ ∀ r, (next r).Follows permits ends (p.after e r)

namespace Program

variable {τ α β : Type} {permits : List (Deed τ) → Transaction τ → Prop}

theorem follows_bind {ends : Past τ → β → Prop} (x : Program τ α) (f : α → Program τ β)
    (p : Past τ) : (x >>= f).Follows permits ends p ↔
      x.Follows permits (fun p a => (f a).Follows permits ends p) p := by
  induction x generalizing p with
  | done a => rfl
  | ask e next ih => exact and_congr Iff.rfl (forall_congr' fun r => ih r _)

theorem Follows.mono {ends ends' : Past τ → α → Prop} (hends : ∀ p a, ends p a → ends' p a)
    {x : Program τ α} {p : Past τ} (h : x.Follows permits ends p) :
    x.Follows permits ends' p := by
  induction x generalizing p with
  | done a => exact hends p a h
  | ask e next ih => exact ⟨h.1, fun r => ih r (h.2 r)⟩

theorem follows_congr {ends ends' : Past τ → α → Prop} (hends : ∀ p a, ends p a ↔ ends' p a)
    (x : Program τ α) (p : Past τ) : x.Follows permits ends p ↔ x.Follows permits ends' p :=
  ⟨Follows.mono fun p a => (hends p a).1, Follows.mono fun p a => (hends p a).2⟩

end Program

/-- The end that a rule asks for, by success and failure. -/
def Past.Ends {τ α : Type} (ok : Past τ → α → Prop) (bad : Past τ → Failure → Prop) (p : Past τ) :
    Except Failure α → Prop
  | .ok a => ok p a
  | .error f => bad p f

namespace Operation

variable {τ α β : Type} {permits : List (Deed τ) → Transaction τ → Prop}
  {ok : Past τ → α → Prop} {bad : Past τ → Failure → Prop} {p : Past τ}

/-- From a past on, an operation attempts only what is permitted, and ends as it is to. -/
def Follows (permits : List (Deed τ) → Transaction τ → Prop) (ok : Past τ → α → Prop)
    (bad : Past τ → Failure → Prop) (x : Operation τ α) (p : Past τ) : Prop :=
  Program.Follows permits (Past.Ends ok bad) (ExceptT.run x) p

theorem Follows.mono {ok' : Past τ → α → Prop} {bad' : Past τ → Failure → Prop}
    {x : Operation τ α} (h : x.Follows permits ok bad p) (hok : ∀ p a, ok p a → ok' p a)
    (hbad : ∀ p f, bad p f → bad' p f) : x.Follows permits ok' bad' p := by
  refine Program.Follows.mono ?_ h
  intro p r hr
  cases r with
  | ok a => exact hok p a hr
  | error f => exact hbad p f hr

/-! ## Control -/

@[simp] theorem follows_pure (a : α) :
    Follows permits ok bad (pure a : Operation τ α) p ↔ ok p a := Iff.rfl

@[simp] theorem follows_throw (f : Failure) :
    Follows permits ok bad (throw f : Operation τ α) p ↔ bad p f := Iff.rfl

@[simp] theorem follows_ofExcept (r : Except Failure α) :
    Follows permits ok bad (ofExcept r) p ↔ p.Ends ok bad r := Iff.rfl

@[simp] theorem follows_bind {ok : Past τ → β → Prop} (x : Operation τ α)
    (f : α → Operation τ β) : Follows permits ok bad (x >>= f) p ↔
      Follows permits (fun p a => Follows permits ok bad (f a) p) bad x p := by
  refine (Program.follows_bind (ExceptT.run x) (ExceptT.bindCont f) p).trans ?_
  refine Program.follows_congr (fun p r => ?_) _ p
  cases r <;> rfl

@[simp] theorem follows_map {ok : Past τ → β → Prop} (g : α → β) (x : Operation τ α) :
    Follows permits ok bad (g <$> x) p ↔ Follows permits (fun p a => ok p (g a)) bad x p := by
  rw [map_eq_pure_bind, follows_bind]
  rfl

@[simp] theorem follows_discard {ok : Past τ → Unit → Prop} (x : Operation τ α) :
    Follows permits ok bad (discard x) p ↔ Follows permits (fun p _ => ok p ()) bad x p :=
  follows_map (fun _ => ()) x

@[simp] theorem follows_tryCatch (x : Operation τ α) (h : Failure → Operation τ α) :
    Follows permits ok bad (tryCatch x h) p ↔
      Follows permits ok (fun p f => Follows permits ok bad (h f) p) x p := by
  refine (Program.follows_bind (ExceptT.run x) _ p).trans ?_
  refine Program.follows_congr (fun p r => ?_) _ p
  cases r <;> rfl

/-! ## Effects -/

@[simp] theorem follows_readClock {ok : Past τ → τ → Prop} :
    Follows permits ok bad (readClock : Operation τ τ) p ↔
      (∀ now, ok (p.add (.read now)) now) ∧ ∀ f, bad p.spoiled f := by
  constructor
  · intro h
    exact ⟨fun now => h.2 (.ok now), fun f => h.2 (.error f)⟩
  · rintro ⟨hok, hbad⟩
    refine ⟨trivial, fun r => ?_⟩
    cases r with
    | ok now => exact hok now
    | error f => exact hbad f

@[simp] theorem follows_log {ok : Past τ → Unit → Prop} (entry : Log.Entry) :
    Follows permits ok bad (log entry) p ↔ ok p () :=
  ⟨fun h => h.2 (), fun h => ⟨trivial, fun _ => h⟩⟩

@[simp] theorem follows_bookkeep {ok : Past τ → Unit → Prop} (b : Bookkeeping τ) :
    Follows permits ok bad (bookkeep b) p ↔ ok p () :=
  ⟨fun h => h.2 (), fun h => ⟨trivial, fun _ => h⟩⟩

@[simp] theorem follows_recallSize {ok : Past τ → SizeMemo τ → Prop} :
    Follows permits ok bad (perform .recallSize) p ↔ ∀ m, ok p m :=
  ⟨fun h => h.2, fun h => ⟨trivial, h⟩⟩

@[simp] theorem follows_pause {ok : Past τ → Unit → Prop} (length : τ) :
    Follows permits ok bad (perform (.pause length)) p ↔ ok p () :=
  ⟨fun h => h.2 (), fun h => ⟨trivial, fun _ => h⟩⟩

@[simp] theorem follows_gate {ok : Past τ → Bool → Prop} (g : GateName) (step : GateStep) :
    Follows permits ok bad (perform (.gate g step)) p ↔ ∀ b, ok p b :=
  ⟨fun h => h.2, fun h => ⟨trivial, h⟩⟩

@[simp] theorem follows_sweeper {ok : Past τ → Unit → Prop} (step : SweeperStep) :
    Follows permits ok bad (perform (.sweeper step)) p ↔ ok p () :=
  ⟨fun h => h.2 (), fun h => ⟨trivial, fun _ => h⟩⟩

@[simp] theorem follows_noteRunning {ok : Past τ → Unit → Prop} (running : Bool) :
    Follows permits ok bad (perform (.noteRunning running)) p ↔ ok p () :=
  ⟨fun h => h.2 (), fun h => ⟨trivial, fun _ => h⟩⟩

@[simp] theorem follows_listeners {ok : Past τ → List ListenerId → Prop} :
    Follows permits ok bad (perform .listeners) p ↔ ∀ ls, ok p ls :=
  ⟨fun h => h.2, fun h => ⟨trivial, h⟩⟩

@[simp] theorem follows_notify {ok : Past τ → Option String → Prop} (l : ListenerId)
    (event : Event) :
    Follows permits ok bad (perform (.notify l event)) p ↔ ∀ answer, ok p answer :=
  ⟨fun h => h.2, fun h => ⟨trivial, h⟩⟩

@[simp] theorem follows_engine (step : EngineStep)
    {ok : Past τ → Effect.Reply (τ := τ) (.engine step) → Prop} :
    Follows permits ok bad (perform (.engine step)) p ↔
      ∀ r, ok (if step.succeeded r then p else p.spoiled) r :=
  ⟨fun h => h.2, fun h => ⟨trivial, h⟩⟩

theorem follows_attempt (a : Transaction τ)
    {ok : Past τ → Effect.Reply (.attempt a) → Prop} :
    Follows permits ok bad (perform (.attempt a)) p ↔
      permits p.deeds a ∧ (∀ r, ok (p.add (.committed a r)) (.ok r)) ∧
        ∀ f, ok p.spoiled (.error f) := by
  constructor
  · intro h
    exact ⟨h.1, fun r => h.2 (.ok r), fun f => h.2 (.error f)⟩
  · rintro ⟨hp, hok, hbad⟩
    refine ⟨hp, fun r => ?_⟩
    cases r with
    | ok r => exact hok r
    | error f => exact hbad f

end Operation

end ExpiringStore
