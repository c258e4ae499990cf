import ExpiringStore.Proofs.Program.Abides
import ExpiringStore.Proofs.Program.Trail
import ExpiringStore.Store.Lifecycle

/-!
# Where callers stand

Starting the store is done under the lock of its gate: the engine is opened, the table is made, and
the gate is opened, in this order.  Stopping it takes no lock: the engine is let go, and both gates
are closed.  Whoever does neither stands outside.

    outside  –lock→  inside  –start→  opened  –makeTable→  made
    opened, made  –unbar→  passed  –unlock→  outside
    outside  –release→  closing  –bar→  outside

A program that abides by this rule leaves no gate open behind which it has not seen an engine or a
table, and fails for want of an engine only if it was told that there is none.
-/

namespace ExpiringStore

variable {τ : Type}

def Failure.isUninitialized : Failure → Bool
  | .complaint c => (c.cause matches .notInitialized)
  | _ => false

/-- Does an answer say that there is no engine? -/
def Effect.denies : (e : Effect τ) → e.Reply → Bool
  | .engine .isOpen, isOpen => !isOpen
  | .engine .dialect, name => name.isNone
  | e, r => ((e.trouble? r).bind Trouble.failure?).any Failure.isUninitialized

/-- Where a caller stands. -/
inductive Stage where
  | outside
  /-- Has the lock of the store's gate. -/
  | inside
  /-- Has the lock, and saw the engine open. -/
  | opened
  /-- Has the lock, and found the table made. -/
  | made
  /-- Has the lock, and opened the gate. -/
  | passed
  /-- Let the engine go. -/
  | closing
  deriving DecidableEq, Repr

namespace Stage

/-- Has the caller the lock of the store's gate? -/
def hasLock : Stage → Bool
  | .inside | .opened | .made | .passed => true
  | .outside | .closing => false

/-- Is there something that the caller may open the gate for? -/
def isReady : Stage → Bool
  | .opened | .made => true
  | _ => false

/-- Which effects are permitted, to one who has the lock of the table's gate or not. -/
def Permits (setting : Bool) : Stage → Effect τ → Prop
  | .outside, .gate .store .unlock | .outside, .gate .store .unbar
  | .outside, .gate .schema _ | .outside, .engine .makeTable => False
  | .outside, _ => True
  | .inside, .log _ | .inside, .gate .store .look
  | .inside, .engine .start | .inside, .engine .dialect => True
  | .inside, .gate .schema .unlock => setting = true
  | .inside, .gate .store .unlock => setting = false
  | .opened, .log _ | .opened, .noteRunning _ | .opened, .sweeper .start
  | .opened, .engine .isOpen | .opened, .engine .dialect | .opened, .engine .makeTable
  | .opened, .gate .schema .look | .opened, .gate .schema .unbar => True
  | .opened, .gate .schema .lock => setting = false
  | .opened, .gate .schema .unlock => setting = true
  | .opened, .gate .store .unbar => setting = false
  | .made, .log _ | .made, .noteRunning _ | .made, .sweeper .start
  | .made, .gate .schema .unbar => True
  | .made, .gate .schema .unlock => setting = true
  | .made, .gate .store .unbar => setting = false
  | .passed, .gate .store .unlock => setting = false
  | .closing, .log _ | .closing, .gate .schema .bar | .closing, .gate .store .bar => True
  | _, _ => False

/-- Where an answer leads. -/
def after : Stage → (e : Effect τ) → e.Reply → Stage
  | .outside, .gate .store .lock, _ => .inside
  | .outside, .engine .release, _ => .closing
  | .inside, .engine .start, .ok _ => .opened
  | .inside, .engine .dialect, some _ => .opened
  | .inside, .gate .store .unlock, _ => .outside
  | .opened, .engine .isOpen, false => .inside
  | .opened, .engine .dialect, none => .inside
  | .opened, .engine .makeTable, .ok true => .made
  | .opened, .engine .makeTable, _ => .inside
  | .opened, .gate .store .unbar, _ => .passed
  | .made, .gate .store .unbar, _ => .passed
  | .passed, .gate .store .unlock, _ => .outside
  | .closing, .gate .store .bar, _ => .outside
  | s, _, _ => s

end Stage

/-- Where a caller stands, and what it was told. -/
structure Standing where
  stage : Stage := .outside
  /-- Has the caller the lock of the table's gate? -/
  setting : Bool := false
  /-- Was the caller told that there is no engine? -/
  denied : Bool := false
  deriving DecidableEq, Repr

namespace Standing

/-- Does a caller have the lock of the table's gate after an effect? -/
def settingAfter (setting : Bool) : Effect τ → Bool
  | .gate .schema .lock => true
  | .gate .schema .unlock => false
  | _ => setting

def rule : Rule τ Standing where
  permits s e := s.stage.Permits s.setting e
  after s e r := ⟨s.stage.after e r, settingAfter s.setting e, s.denied || e.denies r⟩

/-- Ends at a stage. -/
def At {α : Type} (stage : Stage) (setting : Bool) (s : Standing) (_ : α) : Prop :=
  s.stage = stage ∧ s.setting = setting

/-- Fails at a stage, for want of an engine only if there was none. -/
def Fails (stage : Stage) (setting : Bool) (s : Standing) (f : Failure) : Prop :=
  (s.stage = stage ∧ s.setting = setting) ∧ (f.isUninitialized = true → s.denied = true)

/-- Ends where the gate may be opened. -/
def Ready (setting : Bool) (s : Standing) (_ : Unit) : Prop :=
  s.stage.isReady = true ∧ s.setting = setting

end Standing

namespace Operation

open Standing

variable {denied setting : Bool}

/-! ## Starting -/

theorem abides_dialect {stage : Stage} (sees : stage = .inside ∨ stage = .opened) :
    Abides rule (At .opened setting) (Fails .inside setting) (dialect : Operation τ String)
      ⟨stage, setting, denied⟩ := by
  refine (abides_ask _).2 ?_
  rcases sees with rfl | rfl
  · refine ⟨trivial, fun r => ?_⟩
    cases r with
    | none => exact ⟨⟨rfl, rfl⟩, fun _ => Bool.or_true denied⟩
    | some name => exact ⟨rfl, rfl⟩
  · refine ⟨trivial, fun r => ?_⟩
    cases r with
    | none => exact ⟨⟨rfl, rfl⟩, fun _ => Bool.or_true denied⟩
    | some name => exact ⟨rfl, rfl⟩

theorem abides_openEngine : Abides rule (At .opened false) (Fails .inside false)
    (openEngine : Operation τ Unit) ⟨.inside, false, denied⟩ := by
  refine (abides_ask _).2 ⟨trivial, fun r => ?_⟩
  rcases r with f | _ | _
  · have hfails (h : f.isUninitialized = true) : (denied || f.isUninitialized) = true := by
      rw [h, Bool.or_true]
    dsimp only
    split
    · refine (abides_ask _).2 ⟨trivial, fun _ => ⟨⟨rfl, rfl⟩, fun h => ?_⟩⟩
      exact (Bool.or_false _).trans (hfails h)
    · exact ⟨⟨rfl, rfl⟩, hfails⟩
  · exact ⟨rfl, rfl⟩
  · refine (abides_bind _ _).2 ((abides_dialect (.inr rfl)).mono ?_ fun _ _ h => h)
    rintro ⟨stage, setting, denied⟩ name ⟨rfl, rfl⟩
    exact ⟨trivial, fun _ => ⟨rfl, rfl⟩⟩

theorem abides_createTable : Abides rule (Ready true) (Fails .inside true)
    (createTable : Operation τ Unit) ⟨.opened, true, denied⟩ := by
  refine (abides_ask _).2 ⟨trivial, fun isOpen => ?_⟩
  cases isOpen with
  | false => exact ⟨⟨rfl, rfl⟩, fun _ => Bool.or_true denied⟩
  | true =>
    refine (abides_ask _).2 ⟨trivial, fun r => ?_⟩
    rcases r with f | _ | _
    · cases f with
      | fault f =>
        show Abides rule _ _ (if _ then _ else _) _
        split
        · exact (abides_ask _).2 ⟨trivial, fun _ => ⟨⟨rfl, rfl⟩, nofun⟩⟩
        · exact ⟨⟨rfl, rfl⟩, nofun⟩
      | complaint x =>
        refine ⟨⟨rfl, rfl⟩, fun h => ?_⟩
        show (denied || false || Failure.isUninitialized (.complaint x)) = true
        rw [h, Bool.or_true]
      | _ => exact ⟨⟨rfl, rfl⟩, nofun⟩
    · refine (abides_bind _ _).2 ((abides_dialect (.inl rfl)).mono ?_ fun _ _ h => h)
      rintro ⟨stage, setting, denied⟩ name ⟨rfl, rfl⟩
      exact ⟨trivial, fun _ => ⟨rfl, rfl⟩⟩
    · exact (abides_ask _).2 ⟨trivial, fun _ => ⟨rfl, rfl⟩⟩

/-- Making the table leaves the lock of its gate in any case. -/
theorem abides_ensureSchema : Abides rule (Ready false) (Fails .inside false)
    (ensureSchema : Operation τ Unit) ⟨.opened, false, denied⟩ := by
  refine (abides_ask _).2 ⟨trivial, fun b => ?_⟩
  split
  · exact ⟨rfl, rfl⟩
  refine (abides_ask _).2 ⟨rfl, fun _ => (abides_ask _).2 ⟨trivial, fun b => ?_⟩⟩
  split
  · exact ⟨rfl, fun _ => ⟨rfl, rfl⟩⟩
  refine (abides_bind _ _).2 ((abides_tryCatch _ _).2 (abides_createTable.mono ?_ ?_))
  · rintro ⟨stage, setting, denied⟩ ⟨⟩ ⟨ready, rfl⟩
    cases stage with
    | opened => exact ⟨trivial, fun _ => ⟨rfl, fun _ => ⟨rfl, rfl⟩⟩⟩
    | made => exact ⟨trivial, fun _ => ⟨rfl, fun _ => ⟨rfl, rfl⟩⟩⟩
    | _ => cases ready
  · rintro ⟨stage, setting, denied⟩ f ⟨⟨rfl, rfl⟩, honest⟩
    exact ⟨rfl, fun _ => ⟨⟨rfl, rfl⟩, fun h => (Bool.or_false _).trans (honest h)⟩⟩

theorem abides_start (c : Config τ) : Abides rule (Ready false) (Fails .inside false) (start c)
    ⟨.inside, false, denied⟩ := by
  have hlast {stage : Stage} (ready : stage.isReady = true) (denied : Bool) :
      Abides rule (Ready false) (Fails .inside false) (do
        perform (.noteRunning true)
        log ⟨.info, "Cache store started", [
          ("allow_null_values", .bool c.allowNull),
          ("background_cleanup", .bool c.backgroundCleanup)]⟩ : Operation τ Unit)
        ⟨stage, false, denied⟩ := by
    cases stage with
    | opened => exact ⟨trivial, fun _ => ⟨trivial, fun _ => ⟨rfl, rfl⟩⟩⟩
    | made => exact ⟨trivial, fun _ => ⟨trivial, fun _ => ⟨rfl, rfl⟩⟩⟩
    | _ => cases ready
  have hsweeper {stage : Stage} (ready : stage.isReady = true) (denied : Bool) :
      Abides rule (Ready false) (Fails .inside false) (do
        if c.backgroundCleanup then perform (.sweeper .start)
        perform (.noteRunning true)
        log ⟨.info, "Cache store started", [
          ("allow_null_values", .bool c.allowNull),
          ("background_cleanup", .bool c.backgroundCleanup)]⟩ : Operation τ Unit)
        ⟨stage, false, denied⟩ := by
    dsimp only
    split
    · cases stage with
      | opened => exact (abides_ask _).2 ⟨trivial, fun _ => hlast rfl _⟩
      | made => exact (abides_ask _).2 ⟨trivial, fun _ => hlast rfl _⟩
      | _ => cases ready
    · exact hlast ready denied
  unfold start
  refine (abides_bind _ _).2 (abides_openEngine.mono ?_ fun _ _ h => h)
  rintro ⟨stage, setting, denied⟩ ⟨⟩ ⟨rfl, rfl⟩
  dsimp only
  split
  · refine (abides_bind _ _).2 (abides_ensureSchema.mono ?_ fun _ _ h => h)
    rintro ⟨stage, setting, denied⟩ ⟨⟩ ⟨ready, rfl⟩
    exact hsweeper ready denied
  · exact hsweeper rfl denied

/-- Starting the store begins and ends outside. -/
theorem abides_startup (c : Config τ) : Abides rule (At .outside false) (Fails .outside false)
    (startup c) ⟨.outside, false, denied⟩ := by
  refine (abides_ask _).2 ⟨trivial, fun b => ?_⟩
  split
  · exact ⟨rfl, rfl⟩
  refine (abides_ask _).2 ⟨trivial, fun _ => (abides_ask _).2 ⟨trivial, fun b => ?_⟩⟩
  split
  · exact ⟨rfl, fun _ => ⟨rfl, rfl⟩⟩
  refine (abides_bind _ _).2 ((abides_tryCatch _ _).2 ((abides_start c).mono ?_ ?_))
  · rintro ⟨stage, setting, denied⟩ ⟨⟩ ⟨ready, rfl⟩
    cases stage with
    | opened => exact ⟨rfl, fun _ => ⟨rfl, fun _ => ⟨rfl, rfl⟩⟩⟩
    | made => exact ⟨rfl, fun _ => ⟨rfl, fun _ => ⟨rfl, rfl⟩⟩⟩
    | _ => cases ready
  · rintro ⟨stage, setting, denied⟩ f ⟨⟨rfl, rfl⟩, honest⟩
    exact ⟨rfl, fun _ => ⟨⟨rfl, rfl⟩, fun h => (Bool.or_false _).trans (honest h)⟩⟩

/-! ## Stopping -/

theorem abides_closeDatabase {ok : Standing → Unit → Prop} {bad : Standing → Failure → Prop}
    (closing : ∀ denied, ok ⟨.closing, false, denied⟩ ())
    (closed : ∀ denied, ok ⟨.outside, false, denied⟩ ()) :
    Abides rule ok bad (closeDatabase : Operation τ Unit) ⟨.outside, false, denied⟩ := by
  refine (abides_ask _).2 ⟨trivial, fun isOpen => ?_⟩
  cases isOpen with
  | false => exact closed _
  | true =>
    refine (abides_ask _).2 ⟨trivial, fun _ => (abides_ask _).2 ⟨trivial, fun _ => ?_⟩⟩
    exact ⟨trivial, fun _ => ⟨trivial, fun _ => closing _⟩⟩

/-- Stopping the store begins and ends outside. -/
theorem abides_shutdown (c : Config τ) : Abides rule (At .outside false) (Fails .outside false)
    (shutdown c) ⟨.outside, false, denied⟩ := by
  refine (abides_ask _).2 ⟨trivial, fun _ => ?_⟩
  split
  · refine (abides_bind _ _).2 (abides_closeDatabase (fun denied => ?_) fun denied => ?_)
    · exact ⟨trivial, fun _ => ⟨trivial, fun _ => ⟨rfl, rfl⟩⟩⟩
    · exact ⟨trivial, fun _ => ⟨trivial, fun _ => ⟨rfl, rfl⟩⟩⟩
  · exact ⟨trivial, fun _ => ⟨trivial, fun _ => ⟨rfl, rfl⟩⟩⟩

end Operation

end ExpiringStore
