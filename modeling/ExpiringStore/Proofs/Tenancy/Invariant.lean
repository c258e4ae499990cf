import ExpiringStore.Proofs.Interleaving.Play
import ExpiringStore.Proofs.Settings.Loaded
import ExpiringStore.Proofs.Tenancy.Basic

/-!
# The table of a store

Every row in the table of a store that is alone with it is proper: the store has checked and encoded
what it writes, whoever asked for it, and what touches or renews a row keeps it so.  Therefore rows
can be decoded, and lookups do not fail because of them.

    Reachable (c.under settings) elsewhere s   →   the rows of s are proper        (rows_proper)
    a reading that is no number                →   a last access is missing      (access_unread)
-/

namespace ExpiringStore

variable {τ : Type}

/-- A store that takes from settings what entries depend on. -/
def Config.under (c : Config τ) (settings : Settings) : Config τ :=
  { c with allowNull := settings.allowNullValues, defaultTtl := settings.defaultTtl }

variable [Instant τ]

/-! ## Requests that are served at once -/

/-- What is answered where nothing fails that need not may come of an effect. -/
theorem Effect.answer_comes (elsewhere : Failure → Prop) (clock : τ) (t : Table τ)
    (e : Effect τ) : e.Comes elsewhere t (e.answer clock t).1 (e.answer clock t).2 := by
  cases e with
  | attempt a =>
    cases hc : a.commit t with
    | ok p =>
      rw [Effect.answer_ok hc]
      exact .done hc
    | error f =>
      rw [Effect.answer_error hc]
      exact .refused hc
  | readClock => exact ⟨fun _ h => (nomatch h), rfl⟩
  | engine step =>
    cases step with
    | start | hasTable | makeTable => exact ⟨fun _ h => (nomatch h), rfl⟩
    | isOpen | dialect | dispose => exact ⟨trivial, rfl⟩
    | release => exact .inl rfl
  | _ => rfl

namespace Tenancy

/-- An order goes on by one effect, where nothing fails that need not. -/
def serve (clock : τ) (i : Nat) (s : Tenancy τ) : Tenancy τ :=
  match s.orders[i]? with
  | none => s
  | some o =>
    match o.rest with
    | .done _ => s
    | .ask e next =>
      let (r, t) := e.answer clock s.table
      { table := t
        readings := s.readings ++ e.shows r
        orders := s.orders.set i (o.answered e r (next r)) }

/-- An order goes on by so many effects. -/
def serves (clock : τ) (i : Nat) : Nat → Tenancy τ → Tenancy τ
  | 0, s => s
  | n + 1, s => serves clock i n (serve clock i s)

variable [Delay τ] {c : Config τ} {elsewhere : Failure → Prop} {s : Tenancy τ}

/-- A request arrives and is served by so many effects, at an instant. -/
def attend (c : Config τ) (request : Request) (clock : τ) (steps : Nat) (s : Tenancy τ) :
    Tenancy τ :=
  serves clock s.orders.length steps { s with orders := s.orders ++ [.new c request] }

theorem Reachable.serve (h : Reachable c elsewhere s) (clock : τ) (i : Nat) :
    Reachable c elsewhere (s.serve clock i) := by
  unfold Tenancy.serve
  split
  · exact h
  · next o atI =>
    split
    · exact h
    · next e next asks =>
      exact h.tail (.answer s i o e next _ _ atI asks (e.answer_comes elsewhere clock s.table))

theorem Reachable.serves (h : Reachable c elsewhere s) (clock : τ) (i n : Nat) :
    Reachable c elsewhere (s.serves clock i n) := by
  induction n generalizing s with
  | zero => exact h
  | succ n ih => exact ih (h.serve clock i)

theorem Reachable.attend (h : Reachable c elsewhere s) (request : Request) (clock : τ)
    (steps : Nat) : Reachable c elsewhere (s.attend c request clock steps) :=
  Reachable.serves (h.tail (.arrive s request)) clock _ steps

/-! ## Rows are proper -/

/-- Whatever is asked of a store with accepted settings, in whatever order its requests go on and
whatever fails, all rows are proper.  If failures from elsewhere are about no payload, each request
that is over has ended as it is to. -/
theorem rows_proper {files files' : Files} {sources : Settings.Sources} {settings : Settings}
    (accepted : Settings.load files sources = (.ok settings, files')) (c : Config τ)
    (elsewhere : Failure → Prop) {s : Tenancy τ}
    (h : Reachable (c.under settings) elsewhere s) :
    s.table.All (Row.IsProper settings.allowNullValues s.requests s.readings) ∧
      ((∀ f, elsewhere f → f.isAboutPayload = false) →
        ∀ o ∈ s.orders, ∀ r, o.result? = some r → o.request.Ends (c.under settings) r) := by
  have hsound := h.sound (Settings.defaultTtl_of_load accepted)
  refine ⟨hsound.rows, fun honest o mem r hr => ?_⟩
  have habides := hsound.abides honest o mem
  unfold Order.result? at hr
  split at hr
  · next r' hrest =>
    obtain rfl := Option.some.inj hr
    rw [hrest] at habides
    exact habides trivial
  · cases hr

/-- A sliding entry is written for the default lifetime, and looked up five seconds later. -/
theorem rows_proper_touched :
    let c : Config Int := { Config.plain with defaultTtl := some 60 }
    let written : Tenancy Int := Tenancy.attend c
      (.errand (.call (.put (.str "k") (.str "v") .none (.str "SLIDING")))) 1000 9 {}
    let s := written.attend c (.errand (.call (.get (.str "k")))) 1005 9
    s.readings = [1000, 1005] ∧
      (∃ row, s.table.find? "k" = some row ∧ (row.ttl, row.lastAccessed) = (some 60, some 1005) ∧
        row.IsProper false s.requests s.readings "k") ∧
      s.orders.length = 2 ∧ ∀ o ∈ s.orders, ∃ r, o.result? = some r ∧ o.request.Ends c r := by
  intro c written s
  have accepted : Settings.load {}
      { arguments := [("database_url", .str ""), ("default_ttl", .int 60)] } =
        (.ok { databaseUrl := "", defaultTtl := some 60 }, {}) := rfl
  have hreach : Reachable c (fun f => f.isAboutPayload = false) s :=
    (Reachable.attend .refl _ _ _).attend _ _ _
  obtain ⟨hrows, hends⟩ := rows_proper accepted Config.plain _ hreach
  have hfound : (s.table.find? "k").map (fun row => (row.ttl, row.lastAccessed)) =
      some (some 60, some 1005) := by decide +kernel
  have hover : s.orders.length = 2 ∧ s.orders.all (fun o => o.result?.isSome) = true := by
    decide +kernel
  obtain ⟨row, found, hrow⟩ := Option.map_eq_some_iff.1 hfound
  refine ⟨by decide +kernel, ⟨row, found, hrow, hrows "k" row found⟩, hover.1, fun o mem => ?_⟩
  obtain ⟨r, hr⟩ := Option.isSome_iff_exists.1 (List.all_eq_true.1 hover.2 o mem)
  exact ⟨r, hr, hends (fun _ h => h) o mem r hr⟩

/-- A reading of the clock that is no number is kept as a last access that is missing: the clock
shows 1000 when a sliding entry is written, and no number when it is looked up. -/
theorem access_unread :
    let c : Config Number :=
      ⟨false, true, false, none, .int 5, ⟨3, .int 1, .int 2, .int 30⟩, true⟩
    ¬∀ s : Tenancy Number, Reachable c (fun _ => False) s →
      s.table.All fun _ row => ∃ now ∈ s.readings, row.lastAccessed = some now := by
  intro c hall
  let written : Tenancy Number := Tenancy.attend c
    (.errand (.call (.put (.str "k") (.str "v") (.int 10) (.str "SLIDING")))) (.float 1000) 9 {}
  let s := written.attend c (.errand (.call (.get (.str "k")))) (.float (0 / 0)) 9
  have hreach : Reachable c (fun _ => False) s := (Reachable.attend .refl _ _ _).attend _ _ _
  have hrow : (s.table.find? "k").map (fun row => row.lastAccessed.isNone) = some true := by
    decide +kernel
  obtain ⟨row, found, missing⟩ := Option.map_eq_some_iff.1 hrow
  obtain ⟨now, -, known⟩ := hall s hreach "k" row found
  rw [known] at missing
  cases missing

end Tenancy

end ExpiringStore
