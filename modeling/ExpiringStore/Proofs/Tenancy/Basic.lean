import ExpiringStore.Proofs.Interleaving.Basic
import ExpiringStore.Proofs.Tenancy.Requests

/-!
# A store alone with its table

One store uses a table that nobody else uses, and that was empty before.  Requests arrive at any
time, and those under way are answered their effects in any order.  A transaction is carried out or
fails, and if it fails its changes may have been committed all the same; the clock shows anything;
what an engine in memory held may be gone when it is let go.  Which failures come from elsewhere,
rather than from what the table holds, is left open.

    Step c elsewhere s s'          one step
    Sound c elsewhere s            rows are proper, and orders are under way as their requests ask
    Reachable c elsewhere s   →    Sound c elsewhere s                          (Reachable.sound)
-/

namespace ExpiringStore

variable {τ : Type}

/-- A request under way: what was done for it, and what remains of its operation. -/
structure Order (τ : Type) where
  request : Request
  past : Past τ
  rest : Program τ (Except Failure Answer)

/-- A table with the store that uses it. -/
structure Tenancy (τ : Type) where
  table : Table τ := .empty
  /-- What the store has read off the clock. -/
  readings : List τ := []
  orders : List (Order τ) := []

namespace Order

def new [Instant τ] [Delay τ] (c : Config τ) (request : Request) : Order τ :=
  ⟨request, {}, ExceptT.run (request.operation c)⟩

def answered (o : Order τ) (e : Effect τ) (r : e.Reply)
    (rest : Program τ (Except Failure Answer)) : Order τ :=
  { o with past := o.past.after e r, rest }

/-- What the request was answered, if it is over. -/
def result? (o : Order τ) : Option (Except Failure Answer) :=
  match o.rest with
  | .done r => some r
  | .ask _ _ => none

end Order

/-! ## What may come of effects -/

def Effect.shows : (e : Effect τ) → e.Reply → List τ
  | .readClock, .ok now => [now]
  | _, _ => []

theorem Past.read_after {p : Past τ} {e : Effect τ} {r : e.Reply} {now : τ}
    (read : .read now ∈ (p.after e r).deeds) : .read now ∈ p.deeds ∨ now ∈ e.shows r := by
  cases e with
  | readClock =>
    cases r with
    | ok t =>
      rcases List.mem_append.1 read with read | read
      · exact .inl read
      · obtain rfl := Deed.read.inj (List.mem_singleton.1 read)
        exact .inr (List.mem_singleton_self _)
    | error f => exact .inl read
  | attempt a =>
    cases r with
    | ok r => exact .inl (by simpa using (List.mem_append.1 read))
    | error f => exact .inl read
  | engine step => exact .inl (by rwa [Past.deeds_after_engine] at read)
  | _ => exact .inl read

section
variable [Instant τ]

/-- What may come of an attempt at a transaction: what it answers, and the table after it. -/
inductive Transaction.Comes (elsewhere : Failure → Prop) (t : Table τ) :
    (a : Transaction τ) → Except Failure a.Reply → Table τ → Prop
  | done {a : Transaction τ} {r : a.Reply} {t' : Table τ} (commits : commit t a = .ok (r, t')) :
      Comes elsewhere t a (.ok r) t'
  | refused {a : Transaction τ} {f : Failure} (refuses : commit t a = .error f) :
      Comes elsewhere t a (.error f) t
  | failed {a : Transaction τ} {f : Failure} (cause : elsewhere f) :
      Comes elsewhere t a (.error f) t
  /-- It was committed, but this was not heard of. -/
  | unheard {a : Transaction τ} {f : Failure} {r : a.Reply} {t' : Table τ}
      (cause : elsewhere f) (commits : commit t a = .ok (r, t')) : Comes elsewhere t a (.error f) t'
  /-- There was a live row when the insertion was tried, and the row was looked up after others had
  gone on. -/
  | overtaken {key : String} {row : Row τ} {now : τ} :
      Comes elsewhere t (.writeIfAbsent key row now) (liveRow t key now) t

def Effect.Comes (elsewhere : Failure → Prop) (t : Table τ) :
    (e : Effect τ) → e.Reply → Table τ → Prop
  | .attempt a, r, t' => a.Comes elsewhere t r t'
  | .readClock, r, t' => (∀ f, r = .error f → elsewhere f) ∧ t' = t
  | .engine .release, _, t' => t' = t ∨ t' = .empty
  | .engine step, r, t' => step.Fails elsewhere r ∧ t' = t
  | _, _, t' => t' = t

variable {elsewhere : Failure → Prop} {nulls : Bool} {t t' : Table τ}

/-- Where rows can be decoded, and failures from elsewhere are about no payload, what is answered is
fair. -/
theorem Transaction.Comes.fair (honest : ∀ f, elsewhere f → f.isAboutPayload = false)
    (decodes : t.All fun _ row => row.Decodes nulls)
    (readable : t.All fun _ row => row.payload.readError? = none) {a : Transaction τ}
    {r : Except Failure a.Reply} (h : a.Comes elsewhere t r t') :
    (Effect.attempt a).Fair nulls r := by
  cases h with
  | done commits => exact fun p mem => decodes p.1 p.2 (shown_commit commits p mem)
  | refused refuses => exact blameless_commit readable a _ refuses
  | failed cause => exact honest _ cause
  | unheard cause commits => exact honest _ cause
  | @overtaken key row now =>
    cases hr : liveRow t key now with
    | error f => exact blameless_liveRow readable key now f hr
    | ok found =>
      cases found with
      | present row => exact List.forall_mem_singleton.2 (decodes key row (find?_of_liveRow hr))
      | inserted | neither => exact List.forall_mem_nil _

theorem Effect.Comes.fair (honest : ∀ f, elsewhere f → f.isAboutPayload = false)
    (decodes : t.All fun _ row => row.Decodes nulls)
    (readable : t.All fun _ row => row.payload.readError? = none) {e : Effect τ} {r : e.Reply}
    (h : e.Comes elsewhere t r t') : e.Fair nulls r := by
  cases e with
  | readClock => exact fun f hf => honest f (h.1 f hf)
  | attempt a => exact Transaction.Comes.fair honest decodes readable h
  | engine step =>
    cases step with
    | release => trivial
    | start | hasTable | makeTable | isOpen | dialect | dispose => exact h.1.mono honest
  | _ => trivial

/-- What is true of all rows stays true of them. -/
theorem Transaction.Comes.all {P : String → Row τ → Prop} {a : Transaction τ}
    {r : Except Failure a.Reply} (all : t.All P) (keeps : a.Keeps P)
    (h : a.Comes elsewhere t r t') :
    t'.All P := by
  cases h with
  | done commits => exact all_commit all keeps commits
  | unheard elsewhere commits => exact all_commit all keeps commits
  | refused | failed | overtaken => exact all

theorem Effect.Comes.all {P : String → Row τ → Prop} {e : Effect τ} {r : e.Reply} (all : t.All P)
    (keeps : ∀ a, e = .attempt a → a.Keeps P) (h : e.Comes elsewhere t r t') : t'.All P := by
  cases e with
  | attempt a => exact Transaction.Comes.all all (keeps a rfl) h
  | engine step =>
    cases step with
    | release =>
      rcases h with rfl | rfl
      · exact all
      · exact Table.all_empty
    | start | isOpen | dialect | hasTable | makeTable | dispose => exact h.2 ▸ all
  | readClock => exact h.2 ▸ all
  | _ => exact (show t' = t from h) ▸ all

end

/-! ## Steps -/

namespace Tenancy

/-- What the store was asked to do. -/
def requests (s : Tenancy τ) : List Request := s.orders.map Order.request

variable [Instant τ] [Delay τ] {c : Config τ} {elsewhere : Failure → Prop} {s s' : Tenancy τ}

/-- A request arrives, or an order is answered the effect that it asks for. -/
inductive Step (c : Config τ) (elsewhere : Failure → Prop) : Tenancy τ → Tenancy τ → Prop
  | arrive (s : Tenancy τ) (request : Request) :
      Step c elsewhere s { s with orders := s.orders ++ [.new c request] }
  | answer (s : Tenancy τ) (i : Nat) (o : Order τ) (e : Effect τ)
      (next : e.Reply → Program τ (Except Failure Answer)) (r : e.Reply) (t : Table τ)
      (atI : s.orders[i]? = some o) (asks : o.rest = .ask e next)
      (comes : e.Comes elsewhere s.table r t) :
      Step c elsewhere s {
        table := t
        readings := s.readings ++ e.shows r
        orders := s.orders.set i (o.answered e r (next r)) }

/-- The states that are reached from an empty table. -/
def Reachable (c : Config τ) (elsewhere : Failure → Prop) : Tenancy τ → Prop :=
  Relation.ReflTransGen (Step c elsewhere) {}

/-- What is true of every state that is reached. -/
structure Sound (c : Config τ) (elsewhere : Failure → Prop) (s : Tenancy τ) : Prop where
  rows : s.table.All (Row.IsProper c.allowNull s.requests s.readings)
  /-- Orders attempt only what their requests permit. -/
  follows (o : Order τ) (mem : o ∈ s.orders) :
    o.rest.Follows (o.request.Permits c) (fun _ _ => True) o.past
  /-- No order has read what the store has not. -/
  readings (o : Order τ) (mem : o ∈ s.orders) (now : τ) (read : .read now ∈ o.past.deeds) :
    now ∈ s.readings
  /-- All answers were fair, if failures from elsewhere are about no payload. -/
  abides (honest : ∀ f, elsewhere f → f.isAboutPayload = false) (o : Order τ) (mem : o ∈ s.orders) :
    o.rest.Abides (Rule.fair c.allowNull) (fun told r => told → o.request.Ends c r) True

omit [Delay τ] in
theorem sound_empty : Sound c elsewhere ({} : Tenancy τ) where
  rows := Table.all_empty
  follows _ mem := nomatch mem
  readings _ mem := nomatch mem
  abides _ _ mem := nomatch mem

theorem Sound.arrive (h : Sound c elsewhere s) (least : ∀ n ∈ c.defaultTtl, 1 ≤ n)
    (request : Request) :
    Sound c elsewhere { s with orders := s.orders ++ [.new c request] } := by
  constructor
  · refine h.rows.mono fun key row proper => proper.mono ?_ (List.Subset.refl _)
    unfold requests
    rw [List.map_append]
    exact List.subset_append_left _ _
  · refine List.forall_mem_append.2 ⟨h.follows, List.forall_mem_singleton.2 ?_⟩
    exact Program.Follows.mono (fun _ _ _ => trivial) (request.confined_operation c least {})
  · refine List.forall_mem_append.2 ⟨h.readings, List.forall_mem_singleton.2 ?_⟩
    exact fun now read => nomatch read
  · intro honest
    refine List.forall_mem_append.2 ⟨h.abides honest, List.forall_mem_singleton.2 ?_⟩
    exact request.abides_operation c

omit [Instant τ] [Delay τ] in
theorem requests_answered {i : Nat} {o : Order τ} (atI : s.orders[i]? = some o) (e : Effect τ)
    (r : e.Reply) (rest : Program τ (Except Failure Answer)) :
    (s.orders.set i (o.answered e r rest)).map Order.request = s.requests := by
  refine List.ext_getElem? fun j => ?_
  unfold requests
  rw [List.getElem?_map, List.getElem?_map]
  by_cases hj : i = j
  · subst hj
    rw [List.getElem?_set_self (List.getElem?_eq_some_iff.1 atI).1, atI]
    rfl
  · rw [List.getElem?_set_ne hj]

omit [Delay τ] in
theorem Sound.answer (h : Sound c elsewhere s) {i : Nat} {o : Order τ} {e : Effect τ}
    {next : e.Reply → Program τ (Except Failure Answer)} {r : e.Reply} {t : Table τ}
    (atI : s.orders[i]? = some o) (asks : o.rest = .ask e next)
    (comes : e.Comes elsewhere s.table r t) :
    Sound c elsewhere {
      table := t
      readings := s.readings ++ e.shows r
      orders := s.orders.set i (o.answered e r (next r)) } := by
  have mem := List.mem_of_getElem? atI
  have hfollows := h.follows o mem
  rw [asks] at hfollows
  constructor
  · -- The order attempts only what its request permits, with readings that the store has taken.
    have hall : t.All (Row.IsProper c.allowNull s.requests s.readings) := by
      refine comes.all h.rows ?_
      rintro a rfl
      exact hfollows.1 s.requests s.readings (List.mem_map_of_mem mem) (h.readings o mem)
    show t.All (Row.IsProper _ ((s.orders.set i _).map Order.request) _)
    rw [requests_answered atI]
    exact hall.mono fun _ _ proper =>
      proper.mono (List.Subset.refl _) (List.subset_append_left _ _)
  · intro d hd
    rcases List.mem_or_eq_of_mem_set hd with hd | rfl
    · exact h.follows d hd
    · exact hfollows.2 r
  · intro d hd now read
    rcases List.mem_or_eq_of_mem_set hd with hd | rfl
    · exact List.mem_append_left _ (h.readings d hd now read)
    · rcases Past.read_after read with read | shown
      · exact List.mem_append_left _ (h.readings o mem now read)
      · exact List.mem_append_right _ shown
  · intro honest d hd
    rcases List.mem_or_eq_of_mem_set hd with hd | rfl
    · exact h.abides honest d hd
    · -- The rows are proper, so what is answered of them is fair, and so are all answers so far.
      have hfair : e.Fair c.allowNull r := comes.fair honest
        (h.rows.mono fun _ _ proper => proper.decodes)
        (h.rows.mono fun _ _ proper => proper.readable)
      have htold : (True ∧ e.Fair c.allowNull r) = True := eq_true ⟨trivial, hfair⟩
      have habides := h.abides honest o mem
      rw [asks] at habides
      have hnext := habides.2 r
      dsimp only at hnext
      rwa [htold] at hnext

theorem Sound.step (h : Sound c elsewhere s) (least : ∀ n ∈ c.defaultTtl, 1 ≤ n)
    (hstep : Step c elsewhere s s') : Sound c elsewhere s' := by
  cases hstep with
  | arrive request => exact h.arrive least request
  | answer i o e next r t atI asks comes => exact h.answer atI asks comes

/-- Every state that is reached is sound, as long as the default lifetime is none or at least a
second. -/
theorem Reachable.sound (least : ∀ n ∈ c.defaultTtl, 1 ≤ n) (h : Reachable c elsewhere s) :
    Sound c elsewhere s := by
  induction h with
  | refl => exact sound_empty
  | tail _ hstep ih => exact ih.step least hstep

end Tenancy

end ExpiringStore
