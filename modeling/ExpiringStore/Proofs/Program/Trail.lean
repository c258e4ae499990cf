import ExpiringStore.Proofs.Program.Follows

/-!
# Trails

A program leaves a trail: what it has read, recalled and committed, what it has noted in the books
of its store, whom it has told of what, and which of its steps have failed.  All other steps leave
nothing behind but that something was asked for.

    traces (x >>= f)     ↔   traces x, ending where traces (f a) begins            (traces_bind)
    traces (e; f)        ↔   e is in order, and f goes on from every answer        (traces_ask)
    marked x from ms     =   traces x from every trail with the marks ms
-/

namespace ExpiringStore

/-- A step of a program that others can tell. -/
inductive Mark (τ : Type) where
  | read (now : τ)
  | committed (a : Transaction τ) (reply : a.Reply)
  | recalled (memo : SizeMemo τ)
  | noted (b : Bookkeeping τ)
  /-- These listeners were registered. -/
  | listed (listeners : List ListenerId)
  | told (l : ListenerId) (e : Event)

/-- A step of a program that failed. -/
inductive Trouble (τ : Type) where
  | clock (f : Failure)
  /-- A step of the engine failed, maybe with words of its own. -/
  | engine (f : Option Failure)
  | attempt (a : Transaction τ) (f : Failure)

/-- What a program leaves behind. -/
structure Trail (τ : Type) where
  /-- In the order in which they were made. -/
  marks : List (Mark τ) := []
  troubles : List (Trouble τ) := []
  /-- Was anything asked for at all? -/
  asked : Bool := false

/-- The failure that a step of the engine answers, if it answers one. -/
def EngineStep.failure? : (step : EngineStep) → step.Reply → Option Failure
  | .start, .error f => some f
  | .hasTable, .error f => some f
  | .makeTable, .error f => some f
  | _, _ => none

namespace Mark

variable {τ : Type}

def deed? : Mark τ → Option (Deed τ)
  | .read now => some (.read now)
  | .committed a r => some (.committed a r)
  | _ => none

end Mark

namespace Trouble

variable {τ : Type}

def failure? : Trouble τ → Option Failure
  | .clock f => some f
  | .engine f => f
  | .attempt _ f => some f

end Trouble

/-- The mark that an effect leaves as it is answered, if it leaves one. -/
def Effect.mark? {τ : Type} : (e : Effect τ) → e.Reply → Option (Mark τ)
  | .readClock, .ok now => some (.read now)
  | .attempt a, .ok r => some (.committed a r)
  | .recallSize, m => some (.recalled m)
  | .bookkeep b, _ => some (.noted b)
  | .listeners, ls => some (.listed ls)
  | .notify l e, _ => some (.told l e)
  | _, _ => none

def Effect.trouble? {τ : Type} : (e : Effect τ) → e.Reply → Option (Trouble τ)
  | .readClock, .error f => some (.clock f)
  | .attempt a, .error f => some (.attempt a f)
  | .engine step, r => if step.succeeded r then none else some (.engine (step.failure? r))
  | _, _ => none

namespace Trail

variable {τ : Type}

def mark (t : Trail τ) (m : Mark τ) : Trail τ :=
  { t with marks := t.marks ++ [m], asked := true }

def trouble (t : Trail τ) (x : Trouble τ) : Trail τ :=
  { t with troubles := t.troubles ++ [x], asked := true }

/-- A step that leaves nothing behind. -/
def aside (t : Trail τ) : Trail τ := { t with asked := true }

def deeds (t : Trail τ) : List (Deed τ) := t.marks.filterMap Mark.deed?

/-- Did a step of the storage answer a failure? -/
def Met (t : Trail τ) (f : Failure) : Prop := ∃ x ∈ t.troubles, x.failure? = some f

def after (t : Trail τ) : (e : Effect τ) → e.Reply → Trail τ
  | .readClock, .ok now => t.mark (.read now)
  | .readClock, .error f => t.trouble (.clock f)
  | .attempt a, .ok r => t.mark (.committed a r)
  | .attempt a, .error f => t.trouble (.attempt a f)
  | .recallSize, m => t.mark (.recalled m)
  | .bookkeep b, _ => t.mark (.noted b)
  | .listeners, ls => t.mark (.listed ls)
  | .notify l e, _ => t.mark (.told l e)
  | .engine step, r =>
    if step.succeeded r then t.aside else t.trouble (.engine (step.failure? r))
  | .pause _, _ | .log _, _ | .gate _ _, _ | .sweeper _, _ | .noteRunning _, _ => t.aside

@[simp] theorem mark_marks (t : Trail τ) (m : Mark τ) : (t.mark m).marks = t.marks ++ [m] := rfl

@[simp] theorem mark_troubles (t : Trail τ) (m : Mark τ) :
    (t.mark m).troubles = t.troubles := rfl

@[simp] theorem trouble_marks (t : Trail τ) (x : Trouble τ) : (t.trouble x).marks = t.marks := rfl

@[simp] theorem trouble_troubles (t : Trail τ) (x : Trouble τ) :
    (t.trouble x).troubles = t.troubles ++ [x] := rfl

@[simp] theorem aside_marks (t : Trail τ) : t.aside.marks = t.marks := rfl

@[simp] theorem aside_troubles (t : Trail τ) : t.aside.troubles = t.troubles := rfl

theorem marks_after (t : Trail τ) (e : Effect τ) (r : e.Reply) :
    (t.after e r).marks = t.marks ++ (e.mark? r).toList := by
  cases e with
  | readClock =>
    cases r with
    | ok now => rfl
    | error f => exact (List.append_nil _).symm
  | attempt a =>
    cases r with
    | ok r => rfl
    | error f => exact (List.append_nil _).symm
  | recallSize | bookkeep | listeners | notify => rfl
  | engine step =>
    show (if step.succeeded r then t.aside else t.trouble _).marks = t.marks ++ []
    rw [List.append_nil]
    split <;> rfl
  | pause | log | gate | sweeper | noteRunning => exact (List.append_nil _).symm

theorem troubles_after (t : Trail τ) (e : Effect τ) (r : e.Reply) :
    (t.after e r).troubles = t.troubles ++ (e.trouble? r).toList := by
  cases e with
  | readClock =>
    cases r with
    | ok now => exact (List.append_nil _).symm
    | error f => rfl
  | attempt a =>
    cases r with
    | ok r => exact (List.append_nil _).symm
    | error f => rfl
  | engine step =>
    show (if step.succeeded r then t.aside else t.trouble _).troubles =
      t.troubles ++ (if step.succeeded r then none else some (.engine (step.failure? r))).toList
    split
    · exact (List.append_nil _).symm
    · rfl
  | recallSize | bookkeep | listeners | notify | pause | log | gate | sweeper | noteRunning =>
    exact (List.append_nil _).symm

theorem asked_after (t : Trail τ) (e : Effect τ) (r : e.Reply) : (t.after e r).asked = true := by
  cases e with
  | readClock => cases r <;> rfl
  | attempt a => cases r <;> rfl
  | engine step =>
    show (if step.succeeded r then t.aside else t.trouble _).asked = true
    split <;> rfl
  | _ => rfl

theorem mem_trouble (t : Trail τ) (x : Trouble τ) : x ∈ (t.trouble x).troubles := by simp

end Trail

/-- Is an effect in order?  The rule is about the books of the store. -/
def Effect.InOrder {τ : Type} (books : List (Mark τ) → Bookkeeping τ → Prop)
    (marks : List (Mark τ)) : Effect τ → Prop
  | .bookkeep b => books marks b
  | _ => True

/-- From a trail on, a program keeps its books by the rule, and ends as it is to. -/
def Program.Traces {τ α : Type} (books : List (Mark τ) → Bookkeeping τ → Prop)
    (ends : Trail τ → α → Prop) : Program τ α → Trail τ → Prop
  | .done a, t => ends t a
  | .ask e next, t => e.InOrder books t.marks ∧ ∀ r, (next r).Traces books ends (t.after e r)

namespace Program

variable {τ σ α β : Type} {books : List (Mark τ) → Bookkeeping τ → Prop}

theorem traces_bind {ends : Trail τ → β → Prop} (x : Program τ α) (f : α → Program τ β)
    (t : Trail τ) : (x >>= f).Traces books ends t ↔
      x.Traces books (fun t a => (f a).Traces books ends t) t := by
  induction x generalizing t with
  | done a => rfl
  | ask e next ih => exact and_congr Iff.rfl (forall_congr' fun r => ih r _)

theorem Traces.mono {ends ends' : Trail τ → α → Prop} (hends : ∀ t a, ends t a → ends' t a)
    {x : Program τ α} {t : Trail τ} (h : x.Traces books ends t) : x.Traces books ends' t := by
  induction x generalizing t with
  | done a => exact hends t a h
  | ask e next ih => exact ⟨h.1, fun r => ih r (h.2 r)⟩

theorem traces_congr {ends ends' : Trail τ → α → Prop} (hends : ∀ t a, ends t a ↔ ends' t a)
    (x : Program τ α) (t : Trail τ) : x.Traces books ends t ↔ x.Traces books ends' t :=
  ⟨Traces.mono fun t a => (hends t a).1, Traces.mono fun t a => (hends t a).2⟩

/-- The trail that is left when a program is carried out. -/
def trailAfter (handle : (e : Effect τ) → σ → e.Reply × σ) : Program τ α → σ → Trail τ → Trail τ
  | .done _, _, t => t
  | .ask e next, s, t =>
    let (r, s) := handle e s
    (next r).trailAfter handle s (t.after e r)

theorem asked_trailAfter (handle : (e : Effect τ) → σ → e.Reply × σ) (x : Program τ α) (s : σ)
    {t : Trail τ} (h : t.asked = true) : (x.trailAfter handle s t).asked = true := by
  induction x generalizing s t with
  | done a => exact h
  | ask e next ih => exact ih _ _ (t.asked_after e _)

/-- What is true of each mark that surroundings of some kind leave is true of all marks on the
trail. -/
theorem forall_mark_trailAfter {handle : (e : Effect τ) → σ → e.Reply × σ} (kind : σ → Prop)
    {p : Mark τ → Prop} (stays : ∀ e s, kind s → kind (handle e s).2)
    (leaves : ∀ (e : Effect τ) s, kind s → ∀ m, e.mark? (handle e s).1 = some m → p m)
    (x : Program τ α) {s : σ} (hs : kind s) {t : Trail τ} (before : ∀ m ∈ t.marks, p m) :
    ∀ m ∈ (x.trailAfter handle s t).marks, p m := by
  induction x generalizing s t with
  | done a => exact before
  | ask e next ih =>
    refine ih _ (stays e s hs) fun m mem => ?_
    rw [Trail.marks_after] at mem
    rcases List.mem_append.1 mem with mem | mem
    · exact before m mem
    · exact leaves e s hs m (Option.mem_toList.1 mem)

/-- A program that ends as it is to does so whatever its surroundings. -/
theorem Traces.run {ends : Trail τ → α → Prop} {x : Program τ α} {t : Trail τ}
    (h : x.Traces books ends t) (handle : (e : Effect τ) → σ → e.Reply × σ) (s : σ) :
    ends (x.trailAfter handle s t) (x.run handle s).1 := by
  induction x generalizing t s with
  | done a => exact h
  | ask e next ih => exact ih _ (h.2 _) _

end Program

/-- The end that is asked for, by success and failure. -/
def Trail.Ends {τ α : Type} (ok : Trail τ → α → Prop) (bad : Trail τ → Failure → Prop)
    (t : Trail τ) : Except Failure α → Prop
  | .ok a => ok t a
  | .error f => bad t f

namespace Operation

variable {τ α β : Type} {books : List (Mark τ) → Bookkeeping τ → Prop} {ok : Trail τ → α → Prop}
  {bad : Trail τ → Failure → Prop} {t : Trail τ} {ms : List (Mark τ)}

/-- From a trail on, an operation keeps its books by the rule, and ends as it is to. -/
def Traces (books : List (Mark τ) → Bookkeeping τ → Prop) (ok : Trail τ → α → Prop)
    (bad : Trail τ → Failure → Prop) (x : Operation τ α) (t : Trail τ) : Prop :=
  Program.Traces books (Trail.Ends ok bad) (ExceptT.run x) t

/-- The same from certain marks on, whatever else there is of the trail. -/
def Marked (books : List (Mark τ) → Bookkeeping τ → Prop) (ok : Trail τ → α → Prop)
    (bad : Trail τ → Failure → Prop) (x : Operation τ α) (ms : List (Mark τ)) : Prop :=
  ∀ t, t.marks = ms → x.Traces books ok bad t

theorem Traces.mono {ok' : Trail τ → α → Prop} {bad' : Trail τ → Failure → Prop}
    {x : Operation τ α} (h : x.Traces books ok bad t) (hok : ∀ t a, ok t a → ok' t a)
    (hbad : ∀ t f, bad t f → bad' t f) : x.Traces books ok' bad' t := by
  refine Program.Traces.mono ?_ h
  intro t r hr
  cases r with
  | ok a => exact hok t a hr
  | error f => exact hbad t f hr

theorem Marked.mono {ok' : Trail τ → α → Prop} {bad' : Trail τ → Failure → Prop}
    {x : Operation τ α} (h : x.Marked books ok bad ms) (hok : ∀ t a, ok t a → ok' t a)
    (hbad : ∀ t f, bad t f → bad' t f) : x.Marked books ok' bad' ms :=
  fun t ht => (h t ht).mono hok hbad

/-! ## Control -/

@[simp] theorem traces_pure (a : α) :
    Traces books ok bad (pure a : Operation τ α) t ↔ ok t a := Iff.rfl

@[simp] theorem traces_throw (f : Failure) :
    Traces books ok bad (throw f : Operation τ α) t ↔ bad t f := Iff.rfl

@[simp] theorem traces_ofExcept (r : Except Failure α) :
    Traces books ok bad (ofExcept r) t ↔ t.Ends ok bad r := Iff.rfl

@[simp] theorem traces_bind {ok : Trail τ → β → Prop} (x : Operation τ α) (f : α → Operation τ β) :
    Traces books ok bad (x >>= f) t ↔
      Traces books (fun t a => Traces books ok bad (f a) t) bad x t := by
  refine (Program.traces_bind (ExceptT.run x) (ExceptT.bindCont f) t).trans ?_
  refine Program.traces_congr (fun t r => ?_) _ t
  cases r <;> rfl

@[simp] theorem traces_map {ok : Trail τ → β → Prop} (g : α → β) (x : Operation τ α) :
    Traces books ok bad (g <$> x) t ↔ Traces books (fun t a => ok t (g a)) bad x t := by
  rw [map_eq_pure_bind, traces_bind]
  rfl

@[simp] theorem traces_discard {ok : Trail τ → Unit → Prop} (x : Operation τ α) :
    Traces books ok bad (discard x) t ↔ Traces books (fun t _ => ok t ()) bad x t :=
  traces_map (fun _ => ()) x

@[simp] theorem traces_tryCatch (x : Operation τ α) (h : Failure → Operation τ α) :
    Traces books ok bad (tryCatch x h) t ↔
      Traces books ok (fun t f => Traces books ok bad (h f) t) x t := by
  refine (Program.traces_bind (ExceptT.run x) _ t).trans ?_
  refine Program.traces_congr (fun t r => ?_) _ t
  cases r <;> rfl

/-- What is bound goes on from the marks that are found. -/
theorem marked_bind {ok : Trail τ → β → Prop} {x : Operation τ α} {f : α → Operation τ β}
    (h : Marked books (fun t a => Traces books ok bad (f a) t) bad x ms) :
    Marked books ok bad (x >>= f) ms := fun t ht => (traces_bind x f).2 (h t ht)

theorem marked_discard {ok : Trail τ → Unit → Prop} {x : Operation τ α}
    (h : Marked books (fun t _ => ok t ()) bad x ms) : Marked books ok bad (discard x) ms :=
  fun t ht => (traces_discard x).2 (h t ht)

theorem marked_tryCatch {x : Operation τ α} {h : Failure → Operation τ α}
    (hx : Marked books ok (fun t f => Traces books ok bad (h f) t) x ms) :
    Marked books ok bad (tryCatch x h) ms := fun t ht => (traces_tryCatch x h).2 (hx t ht)

/-! ## Effects -/

theorem traces_ask (e : Effect τ) {f : e.Reply → Operation τ α} :
    Traces books ok bad (perform e >>= f) t ↔
      e.InOrder books t.marks ∧ ∀ r, Traces books ok bad (f r) (t.after e r) := Iff.rfl

theorem marked_aside {e : Effect τ} {ok : Trail τ → e.Reply → Prop}
    (order : e.InOrder books ms) (hmarks : ∀ t r, (Trail.after t e r).marks = t.marks)
    (h : ∀ r t, t.marks = ms → ok t r) : Marked books ok bad (perform e) ms := by
  rintro t rfl
  exact ⟨order, fun r => h r _ (hmarks t r)⟩

theorem marked_mark {e : Effect τ} {ok : Trail τ → e.Reply → Prop} (m : e.Reply → Mark τ)
    (order : e.InOrder books ms) (hmarks : ∀ t r, (Trail.after t e r).marks = t.marks ++ [m r])
    (h : ∀ r t, t.marks = ms ++ [m r] → ok t r) : Marked books ok bad (perform e) ms := by
  rintro t rfl
  exact ⟨order, fun r => h r _ (hmarks t r)⟩

theorem marked_readClock {ok : Trail τ → τ → Prop}
    (hok : ∀ now t, t.marks = ms ++ [.read now] → ok t now)
    (hbad : ∀ (t : Trail τ) f, t.marks = ms → .clock f ∈ t.troubles → bad t f) :
    Marked books ok bad (readClock : Operation τ τ) ms := by
  rintro t rfl
  refine ⟨trivial, fun r => ?_⟩
  cases r with
  | ok now => exact hok now _ rfl
  | error f => exact hbad _ f rfl (t.mem_trouble _)

section
variable {ok : Trail τ → Unit → Prop}

theorem marked_log {entry : Log.Entry} (h : ∀ t, t.marks = ms → ok t ()) :
    Marked books ok bad (log entry) ms := marked_aside trivial (fun _ _ => rfl) fun _ => h

theorem marked_pause {length : τ} (h : ∀ t, t.marks = ms → ok t ()) :
    Marked books ok bad (perform (.pause length)) ms :=
  marked_aside trivial (fun _ _ => rfl) fun _ => h

theorem marked_sweeper {step : SweeperStep} (h : ∀ t, t.marks = ms → ok t ()) :
    Marked books ok bad (perform (.sweeper step)) ms :=
  marked_aside trivial (fun _ _ => rfl) fun _ => h

theorem marked_noteRunning {running : Bool} (h : ∀ t, t.marks = ms → ok t ()) :
    Marked books ok bad (perform (.noteRunning running)) ms :=
  marked_aside trivial (fun _ _ => rfl) fun _ => h

theorem marked_bookkeep {b : Bookkeeping τ} (order : books ms b)
    (h : ∀ t, t.marks = ms ++ [.noted b] → ok t ()) : Marked books ok bad (bookkeep b) ms :=
  marked_mark (fun _ => .noted b) order (fun _ _ => rfl) fun _ => h

end

theorem marked_gate {ok : Trail τ → Bool → Prop} {g : GateName} {step : GateStep}
    (h : ∀ b t, t.marks = ms → ok t b) : Marked books ok bad (perform (.gate g step)) ms :=
  marked_aside trivial (fun _ _ => rfl) h

theorem marked_recallSize {ok : Trail τ → SizeMemo τ → Prop}
    (h : ∀ m t, t.marks = ms ++ [.recalled m] → ok t m) :
    Marked books ok bad (perform .recallSize) ms :=
  marked_mark .recalled trivial (fun _ _ => rfl) h

theorem marked_listeners {ok : Trail τ → List ListenerId → Prop}
    (h : ∀ ls t, t.marks = ms ++ [.listed ls] → ok t ls) :
    Marked books ok bad (perform .listeners) ms :=
  marked_mark .listed trivial (fun _ _ => rfl) h

theorem marked_notify {ok : Trail τ → Option String → Prop} {l : ListenerId} {e : Event}
    (h : ∀ answer t, t.marks = ms ++ [.told l e] → ok t answer) :
    Marked books ok bad (perform (.notify l e)) ms :=
  marked_mark (fun _ => .told l e) trivial (fun _ _ => rfl) h

end Operation

end ExpiringStore
