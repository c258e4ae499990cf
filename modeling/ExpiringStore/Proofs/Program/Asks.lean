import ExpiringStore.Proofs.Call.Habits

/-!
# What programs ask for

A program asks only for effects of some kind if it does so whatever it is answered.  Starting and
stopping the store ask for no more than formalities: gates are passed and barred, the engine is
opened, the table is made, and a database that is the store's own is let go.  No call lets it go.

    asks p (x >>= f)   ←   asks p x and every asks p (f a)                     (Operation.asks_bind)
    p of all but letting the engine go   →   asks p (call.program c)           (Call.asks_program)
-/

namespace ExpiringStore

variable {τ α β : Type}

abbrev Rule.only (p : Effect τ → Prop) : Rule τ Unit where
  permits _ e := p e
  after _ _ _ := ()

/-- A formality of starting or stopping the store, or of a question about its table. -/
def Effect.isFormal : Effect τ → Bool
  | .log _ | .gate _ _ | .noteRunning _ | .sweeper _ => true
  | .engine step => step != .release
  | _ => false

def Effect.keepsEngine : Effect τ → Bool
  | .engine step => step != .release
  | _ => true

theorem Effect.keepsEngine_of_isFormal {e : Effect τ} (formal : e.isFormal = true) :
    e.keepsEngine = true := by
  cases e with
  | engine step => exact formal
  | _ => rfl

namespace Operation

variable {p : Effect τ → Prop} {x : Operation τ α}

/-- Asks only for effects of some kind, whatever it is answered. -/
def Asks (p : Effect τ → Prop) (x : Operation τ α) : Prop :=
  Abides (Rule.only p) (fun _ _ => True) (fun _ _ => True) x ()

theorem asks_done (a : α) : Asks p (pure a : Operation τ α) := trivial

theorem asks_throw (f : Failure) : Asks p (throw f : Operation τ α) := trivial

theorem asks_perform {e : Effect τ} (he : p e) : Asks p (perform e) := ⟨he, fun _ => trivial⟩

theorem asks_bind {f : α → Operation τ β} (hx : Asks p x) (hf : ∀ a, Asks p (f a)) :
    Asks p (x >>= f) :=
  (abides_bind x f).2 (hx.mono (fun _ a _ => hf a) fun _ _ _ => trivial)

theorem asks_discard (hx : Asks p x) : Asks p (discard x) := (abides_discard x).2 hx

theorem asks_map (hx : Asks p x) (g : α → β) : Asks p (g <$> x) := (abides_map g x).2 hx

theorem asks_tryCatch {f : Failure → Operation τ α} (hx : Asks p x) (hf : ∀ a, Asks p (f a)) :
    Asks p (tryCatch x f) :=
  (abides_tryCatch x f).2 (hx.mono (fun _ _ _ => trivial) fun _ a _ => hf a)

/-! ## Starting and stopping -/

section
variable (formal : ∀ e : Effect τ, e.isFormal = true → p e)
include formal

theorem asks_pass {setUp : Operation τ Unit} (g : GateName) (h : Asks p setUp) :
    Asks p (Gate.pass (ε := Failure) (atGate g) setUp) := by
  have hstep (step : GateStep) : Asks p (atGate g step : Operation τ Bool) :=
    asks_perform (formal _ rfl)
  unfold Gate.pass
  refine asks_bind (hstep .look) fun b => ?_
  split
  · exact asks_done ()
  refine asks_bind (asks_discard (hstep .lock)) fun _ => asks_bind (hstep .look) fun b => ?_
  split
  · exact asks_discard (hstep .unlock)
  refine asks_bind (asks_tryCatch h fun f => ?_) fun _ => ?_
  · exact asks_bind (asks_discard (hstep .unlock)) fun _ => asks_throw f
  · exact asks_bind (asks_discard (hstep .unbar)) fun _ => asks_discard (hstep .unlock)

theorem asks_dialect : Asks p (dialect : Operation τ String) := by
  refine asks_bind (asks_perform (formal _ rfl)) fun name => ?_
  cases name with
  | none => exact asks_throw _
  | some name => exact asks_done name

theorem asks_openEngine : Asks p (openEngine : Operation τ Unit) := by
  refine asks_bind (asks_perform (formal _ rfl)) fun r => ?_
  rcases r with f | _ | _
  · dsimp only
    split
    · exact asks_bind (asks_perform (formal _ rfl)) fun _ => asks_throw f
    · exact asks_throw f
  · exact asks_done ()
  · exact asks_bind (asks_dialect formal) fun name => asks_perform (formal _ rfl)

theorem asks_createTable : Asks p (createTable : Operation τ Unit) := by
  refine asks_bind (asks_perform (formal _ rfl)) fun isOpen => ?_
  cases isOpen with
  | false => exact asks_throw _
  | true =>
    refine asks_bind (asks_perform (formal _ rfl)) fun r => ?_
    rcases r with f | _ | _
    · cases f with
      | fault f =>
        dsimp only
        split
        · exact asks_bind (asks_perform (formal _ rfl)) fun _ => asks_throw _
        · exact asks_throw _
      | _ => exact asks_throw _
    · exact asks_bind (asks_dialect formal) fun name => asks_perform (formal _ rfl)
    · exact asks_perform (formal _ rfl)

theorem asks_start (c : Config τ) : Asks p (start c) := by
  have hlast : Asks p (do
      perform (.noteRunning true)
      log ⟨.info, "Cache store started", [
        ("allow_null_values", .bool c.allowNull),
        ("background_cleanup", .bool c.backgroundCleanup)]⟩ : Operation τ Unit) :=
    asks_bind (asks_perform (formal _ rfl)) fun _ => asks_perform (formal _ rfl)
  have hsweeper : Asks p (do
      if c.backgroundCleanup then perform (.sweeper .start)
      perform (.noteRunning true)
      log ⟨.info, "Cache store started", [
        ("allow_null_values", .bool c.allowNull),
        ("background_cleanup", .bool c.backgroundCleanup)]⟩ : Operation τ Unit) := by
    dsimp only
    split
    · exact asks_bind (asks_perform (formal _ rfl)) fun _ => hlast
    · exact hlast
  unfold start
  refine asks_bind (asks_openEngine formal) fun _ => ?_
  dsimp only
  split
  · exact asks_bind (asks_pass formal .schema (asks_createTable formal)) fun _ => hsweeper
  · exact hsweeper

/-- Starting the store is a formality. -/
theorem asks_startup (c : Config τ) : Asks p (startup c) :=
  asks_pass formal .store (asks_start formal c)

theorem asks_tableExists : Asks p (tableExists : Operation τ Bool) := by
  refine asks_bind (asks_openEngine formal) fun _ => ?_
  refine asks_bind (asks_perform (formal _ rfl)) fun isOpen => ?_
  cases isOpen with
  | false => exact asks_throw _
  | true =>
    refine asks_bind (asks_perform (formal _ rfl)) fun r => ?_
    rcases r with f | found
    · cases f with
      | fault f =>
        dsimp only
        split <;> exact asks_throw _
      | _ => exact asks_throw _
    · exact asks_done found

/-- Stopping the store is one as well, but for a database of its own that is let go. -/
theorem asks_shutdown (c : Config τ) (release : c.ownsDatabase = true → p (.engine .release)) :
    Asks p (shutdown c) := by
  have hlast : Asks p (do
      discard (atGate .store .bar)
      perform (.noteRunning false) : Operation τ Unit) :=
    asks_bind (asks_discard (asks_perform (formal _ rfl))) fun _ => asks_perform (formal _ rfl)
  unfold shutdown
  refine asks_bind (asks_perform (formal _ rfl)) fun _ => ?_
  dsimp only
  split
  · next owns =>
    refine asks_bind ?_ fun _ => hlast
    unfold closeDatabase
    refine asks_bind (asks_perform (formal _ rfl)) fun isOpen => ?_
    split
    · refine asks_bind (asks_perform (formal _ rfl)) fun _ => ?_
      refine asks_bind (asks_perform (release owns)) fun _ => ?_
      exact asks_bind (asks_discard (asks_perform (formal _ rfl))) fun _ =>
        asks_perform (formal _ rfl)
    · exact asks_done ()
  · exact hlast

end

/-! ## Transactions -/

/-- An attempt whose faults are met. -/
theorem asks_attempt {t : Transaction τ} {meet : Fault → Operation τ t.Reply} (ht : p (.attempt t))
    (hmeet : ∀ f, Asks p (meet f)) : Asks p (perform (.attempt t) >>= settle meet) := by
  refine asks_bind (asks_perform ht) fun r => ?_
  cases r with
  | ok r => exact asks_done r
  | error f =>
    cases f with
    | fault f =>
      show Asks p (if _ then _ else _)
      split
      · exact asks_throw _
      · exact hmeet f
    | _ => exact asks_throw _

/-- A transaction asks for itself, and to wait and to log between its attempts. -/
theorem asks_transact [Instant τ] [Delay τ] (c : Config τ) {operation : String} {t : Transaction τ}
    {key : Option Key} (ht : p (.attempt t)) (log : ∀ entry, p (.log entry))
    (pause : ∀ length, p (.pause length)) : Asks p (transact c operation t key) := by
  suffices hall : ∀ left attempt, Asks p (transactFrom c.retry operation key t attempt left) from
    hall _ _
  intro left
  induction left with
  | zero => exact fun attempt => asks_attempt ht fun f => asks_throw _
  | succ left ih =>
    refine fun attempt => asks_attempt ht fun f => ?_
    split
    · refine asks_bind ?_ fun _ => ih (attempt + 1)
      unfold waitFor
      split
      · exact asks_throw _
      · exact asks_bind (asks_perform (log _)) fun _ => asks_perform (pause _)
    · exact asks_throw _

/-! ## Calls -/

/-- What every effect is that keeps the engine, is what every call asks for. -/
theorem habit_asks (keeps : ∀ e : Effect τ, e.keepsEngine = true → p e) :
    Habit fun {_} (x : Operation τ _) => Asks p x where
  done := asks_done
  fail _ := asks_throw _
  bind := asks_bind
  aside {e} aside := asks_perform <| keeps e <| by
    cases e with
    | engine => cases aside
    | _ => rfl
  clock := by
    refine ⟨keeps _ rfl, fun r => ?_⟩
    cases r <;> trivial
  start c := asks_startup (fun e formal => keeps e (Effect.keepsEngine_of_isFormal formal)) c
  attempt hmeet := asks_attempt (keeps _ rfl) hmeet
  attended event key _ hx := by
    refine asks_tryCatch (asks_map hx some) fun f => ?_
    cases f with
    | complaint x => exact asks_bind (asks_perform (keeps _ rfl)) fun _ => asks_done none
    | _ => exact asks_throw _

end Operation

/-- No call lets the engine go. -/
theorem Call.asks_program [Instant τ] [Delay τ] (c : Config τ) (call : Call) :
    Operation.Asks (fun e => e.keepsEngine = true) (call.program c) :=
  (Operation.habit_asks fun _ keeps => keeps).of_program c call

end ExpiringStore
