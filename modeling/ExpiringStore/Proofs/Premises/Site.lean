import ExpiringStore.Proofs.Premises.Basic

/-!
# Sites

A site has a database of its own, and nothing fails there that need not: gates open and close, the
table is there once it has been made, and a transaction fails where there is none.  It is a model of
the premises, for a database in memory and for one in a file.

    Premises.site lasting       at a site, whose table outlives the engine or does not

The running store has such premises: when it lets its engine go, the table in its memory is gone,
and all other tables are where they were (Rehearsal.tableAt_release).
-/

namespace ExpiringStore

variable {τ : Type}

/-- A clock, a desk, and a database with its engine, table and gates. -/
structure Site (τ : Type) where
  clock : τ
  desk : Desk τ
  /-- Is the engine open? -/
  engine : Bool := false
  /-- Is the table there? -/
  made : Bool := false
  gates : GateName → Bool := fun _ => false

namespace Site

variable [Instant τ]

def attempt (a : Transaction τ) (s : Site τ) : Except Failure a.Reply × Site τ :=
  if !s.engine then (.error (.complaint ⟨.notInitialized, none, none⟩), s)
  else if !s.made then (.error Engine.noTable, s)
  else
    let (r, t) := (Effect.attempt a).answer s.clock s.desk.table
    (r, { s with desk := { s.desk with table := t } })

def stepEngine (lasting : Bool) : (step : EngineStep) → Site τ → step.Reply × Site τ
  | .start, s => (.ok !s.engine, { s with engine := true })
  | .isOpen, s => (s.engine, s)
  | .dialect, s => (if s.engine then some "sqlite" else none, s)
  | .hasTable, s => (.ok s.made, s)
  | .makeTable, s => (.ok s.made, { s with made := true })
  | .dispose, s => ((), s)
  | .release, s =>
    if lasting then ((), { s with engine := false })
    else ((), { s with engine := false, made := false, desk := { s.desk with table := .empty } })

def handle (lasting : Bool) : (e : Effect τ) → Site τ → e.Reply × Site τ
  | .attempt a, s => s.attempt a
  | .engine step, s => s.stepEngine lasting step
  | .gate g step, s =>
    let (r, isOpen) := Rehearsal.stepGate (s.gates g) step
    (r, { s with gates := Function.update s.gates g isOpen })
  | e, s =>
    let (r, _, desk) := Host.plain.handle e (s.clock, s.desk)
    (r, { s with desk })

theorem lawful (lasting : Bool) (e : Effect τ) (s : Site τ) (keeps : e.keepsEngine = true) :
    e.Does (fun d d' => d' = d) (s.handle lasting e).1 s.desk (s.handle lasting e).2.desk := by
  cases e with
  | attempt a =>
    show Effect.Does _ (.attempt a) (s.attempt a).1 s.desk (s.attempt a).2.desk
    unfold attempt
    split
    · rfl
    split
    · rfl
    · exact Host.plain.lawful (.attempt a) (s.clock, s.desk)
  | engine step =>
    cases step with
    | release => cases keeps
    | _ => rfl
  | recallSize => exact ⟨rfl, rfl⟩
  | _ => rfl

theorem clock_handle (lasting : Bool) (e : Effect τ) (s : Site τ) :
    (s.handle lasting e).2.clock = s.clock := by
  cases e with
  | attempt a =>
    show (s.attempt a).2.clock = s.clock
    unfold attempt
    split
    · rfl
    split <;> rfl
  | engine step =>
    cases step with
    | release => cases lasting <;> rfl
    | _ => rfl
  | _ => rfl

end Site

def Premises.site [MonotoneInstant τ] (lasting : Bool) : Premises τ (Site τ) where
  handle e s := s.handle lasting e
  desk s := s.desk
  latest s := s.clock
  lasting := lasting
  lawful := Site.lawful lasting
  release s := by cases lasting <;> rfl
  latest_le e s := (Site.clock_handle lasting e s).ge
  reads s now h := by
    obtain rfl := Except.ok.inj h
    exact ⟨le_rfl, le_rfl⟩

/-! ## The running store -/

namespace Rehearsal

theorem lookup_setEntry {α β : Type} [BEq α] [LawfulBEq α] (key : α) (value : β)
    (entries : List (α × β)) : (setEntry key value entries).lookup key = some value := by
  induction entries with
  | nil => simp [setEntry]
  | cons entry rest ih =>
    unfold setEntry
    split
    · next hk => simp [eq_of_beq hk]
    · next hk =>
      have hother : (key == entry.1) = false := by
        rw [Bool.beq_comm]; simpa using hk
      rw [List.lookup_cons, hother]
      exact ih

@[simp] theorem World.database_setDatabase (w : World) (d : DatabaseId) (db : Database) :
    (w.setDatabase d db).database d = db := by
  unfold database setDatabase
  rw [lookup_setEntry]
  rfl

/-- An engine that is let go takes the table in its memory with it, and no other table. -/
theorem tableAt_release (w : World) (d : DatabaseId) (place : Place) :
    (stepEngine w d .release).2.tableAt ((stepEngine w d .release).2.database d) place =
      if place = .memory then none else w.tableAt (w.database d) place := by
  have hdatabase : (stepEngine w d .release).2.database d =
      { w.database d with engine := none, memory := none } := World.database_setDatabase ..
  rw [hdatabase]
  cases place <;> rfl

end Rehearsal

end ExpiringStore
