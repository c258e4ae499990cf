import ExpiringStore.Proofs.Program.Trail
import ExpiringStore.Store.Removal

/-!
# Trails of parts

What the parts that operations share leave behind.  Starting the store leaves no mark, and where it
fails a step of the engine has.  A transaction leaves one mark if it commits, and otherwise what is
reported of its last attempt.  Telling listeners of an event leaves a mark for each of them.

    startup c        ends well with the same marks, or with trouble at the engine
    transact c a     ends well with a committed, or with trouble at an attempt at a
    announce e       ends well with e told to those who are listed
-/

namespace ExpiringStore

/-- Is a failure about what was asked for?  Then it is to be found before anything is done. -/
def Failure.isRefusal : Failure → Bool
  | .complaint c => c.cause.kind == .validation || (c.cause matches .unencodable _ _)
  | .notIterable _ | .notMapping _ | .tooLargeForDouble | .undefinedNumber | .infiniteNumber => true
  | _ => false

/-- The marks of a mark for each of several events in turn. -/
inductive Announced {τ : Type} : List Event → List (Mark τ) → Prop
  | nil : Announced [] []
  | cons (e : Event) (ls : List ListenerId) {es : List Event} {ms : List (Mark τ)}
      (rest : Announced es ms) : Announced (e :: es) (.listed ls :: ls.map (.told · e) ++ ms)

/-- What may be reported of a transaction whose last attempt ended with a failure. -/
inductive Config.Reports {τ : Type} [Delay τ] (c : Config τ) : Failure → Failure → Prop
  /-- It passes through. -/
  | same (f : Failure) (passes : ∀ g, f = .fault g → g.kind.origin = .elsewhere) : c.Reports f f
  | complaint (g : Fault) (x : Complaint) (mild : Failure.isRefusal (.complaint x) = false) :
      c.Reports (.fault g) (.complaint x)
  /-- The pause before another attempt has no length. -/
  | delay (g : Fault) (n : Int) (reason : PowerFailure) (none : c.retry.delay n = .error reason) :
      c.Reports (.fault g) (.delay reason)

namespace Operation

variable {τ : Type} {books : List (Mark τ) → Bookkeeping τ → Prop}
  {bad : Trail τ → Failure → Prop} {ms : List (Mark τ)}

/-! ## Starting -/

section
variable {ok : Trail τ → Unit → Prop}

theorem marked_pass {setUp : Operation τ Unit} (g : GateName) (hok : ∀ t, t.marks = ms → ok t ())
    (h : Marked books (fun t _ => t.marks = ms) (fun t f => bad t.aside f) setUp ms) :
    Marked books ok bad (Gate.pass (ε := Failure) (atGate g) setUp) ms := by
  have hlock : Marked books ok bad (discard (atGate g .unlock)) ms :=
    marked_discard (marked_gate fun _ => hok)
  unfold Gate.pass
  refine marked_bind (marked_gate fun b => ?_)
  split
  · exact hok
  refine marked_bind (marked_discard (marked_gate fun _ => ?_))
  refine marked_bind (marked_gate fun b => ?_)
  split
  · exact hlock
  refine marked_bind (marked_tryCatch (h.mono (fun t _ ht => ?_) fun t f hf => ?_))
  · refine marked_bind (marked_discard (marked_gate fun _ => ?_)) t ht
    exact hlock
  · rw [traces_bind, traces_discard]
    exact ⟨trivial, fun _ => hf⟩

/-- Trouble at the engine, of which no refusal is told unless it was answered. -/
def Troubled (bad : Trail τ → Failure → Prop) (ms : List (Mark τ)) : Prop :=
  ∀ t f g, t.marks = ms → .engine g ∈ t.troubles → (f.isRefusal = true → g = some f) → bad t f

theorem Troubled.aside (h : Troubled bad ms) : Troubled (fun t f => bad t.aside f) ms :=
  fun t f g ht hg hf => h t.aside f g ht hg hf

theorem marked_dialect {ok : Trail τ → String → Prop} (hok : ∀ name t, t.marks = ms → ok t name)
    (hbad : Troubled bad ms) : Marked books ok bad dialect ms := by
  rintro t rfl
  refine (traces_ask _).2 ⟨trivial, fun r => ?_⟩
  cases r with
  | none => exact hbad _ _ none rfl (t.mem_trouble _) fun h => nomatch h
  | some name => exact hok name _ rfl

theorem marked_openEngine (hok : ∀ t, t.marks = ms → ok t ()) (hbad : Troubled bad ms) :
    Marked books ok bad openEngine ms := by
  rintro t rfl
  refine (traces_ask _).2 ⟨trivial, fun r => ?_⟩
  rcases r with f | _ | _
  · dsimp only
    split
    · refine (traces_ask _).2 ⟨trivial, fun _ => ?_⟩
      exact hbad _ f (some f) rfl (t.mem_trouble _) fun _ => rfl
    · exact hbad _ f (some f) rfl (t.mem_trouble _) fun _ => rfl
  · exact hok _ rfl
  · exact marked_bind (marked_dialect (fun name => marked_log hok) hbad) _ rfl

theorem marked_createTable (hok : ∀ t, t.marks = ms → ok t ()) (hbad : Troubled bad ms) :
    Marked books ok bad createTable ms := by
  rintro t rfl
  refine (traces_ask _).2 ⟨trivial, fun isOpen => ?_⟩
  cases isOpen with
  | false => exact hbad _ _ none rfl (t.mem_trouble _) fun h => nomatch h
  | true =>
    refine (traces_ask _).2 ⟨trivial, fun r => ?_⟩
    rcases r with f | _ | _
    · cases f with
      | fault f =>
        show Traces books ok bad (if _ then _ else _) _
        split
        · refine (traces_ask _).2 ⟨trivial, fun _ => ?_⟩
          exact hbad _ _ (some (.fault f)) rfl (t.aside.mem_trouble _) fun h => nomatch h
        · exact hbad _ _ (some (.fault f)) rfl (t.aside.mem_trouble _) fun _ => rfl
      | _ => exact hbad _ _ (some _) rfl (t.aside.mem_trouble _) fun _ => rfl
    · exact marked_bind (marked_dialect (fun name => marked_log hok) hbad) _ rfl
    · exact marked_log hok _ rfl

theorem marked_start (c : Config τ) (hok : ∀ t, t.marks = ms → ok t ()) (hbad : Troubled bad ms) :
    Marked books ok bad (start c) ms := by
  have hlast : Marked books ok bad (do
      perform (.noteRunning true)
      log ⟨.info, "Cache store started", [
        ("allow_null_values", .bool c.allowNull),
        ("background_cleanup", .bool c.backgroundCleanup)]⟩) ms :=
    marked_bind (marked_noteRunning (marked_log hok))
  have hsweeper : Marked books ok bad (do
      if c.backgroundCleanup then perform (.sweeper .start)
      perform (.noteRunning true)
      log ⟨.info, "Cache store started", [
        ("allow_null_values", .bool c.allowNull),
        ("background_cleanup", .bool c.backgroundCleanup)]⟩) ms := by
    dsimp only
    split
    · exact marked_bind (marked_sweeper hlast)
    · exact hlast
  unfold start
  refine marked_bind (marked_openEngine ?_ hbad)
  dsimp only
  split
  · exact marked_bind (marked_pass .schema hsweeper
      (marked_createTable (fun _ ht => ht) hbad.aside))
  · exact hsweeper

/-- Starting the store leaves no mark, and fails only where the engine does. -/
theorem marked_startup (c : Config τ) (hok : ∀ t, t.marks = ms → ok t ())
    (hbad : Troubled bad ms) : Marked books ok bad (startup c) ms :=
  marked_pass .store hok (marked_start c (fun _ ht => ht) hbad.aside)

end

/-! ## Transactions -/

section
variable [Delay τ] {a : Transaction τ} {ok : Trail τ → a.Reply → Prop}

/-- Trouble at an attempt, and what is reported of it. -/
def Failed (c : Config τ) (bad : Trail τ → Failure → Prop) (ms : List (Mark τ))
    (a : Transaction τ) : Prop :=
  ∀ t f g, t.marks = ms → .attempt a g ∈ t.troubles → c.Reports g f → bad t f

theorem reports_lastComplaint (c : Config τ) (operation : String) (key : Option Key) (n : Nat)
    (f : Fault) : c.Reports (.fault f) (lastComplaint operation key n f) := by
  refine .complaint f _ ?_
  split <;> rfl

theorem traces_settle {c : Config τ} {t : Trail τ} {f : Failure}
    {meet : Fault → Operation τ a.Reply} (hbad : Failed c bad t.marks a)
    (hmem : .attempt a f ∈ t.troubles)
    (hmeet : ∀ g, f = .fault g → Traces books ok bad (meet g) t) :
    Traces books ok bad (settle meet (.error f)) t := by
  cases f with
  | fault g =>
    show Traces books ok bad (if _ then _ else _) _
    split
    · next helse =>
      refine hbad _ _ _ rfl hmem (.same _ fun g' hg' => ?_)
      obtain rfl := Failure.fault.inj hg'
      simpa using helse
    · exact hmeet g rfl
  | _ => exact hbad _ _ _ rfl hmem (.same _ fun g' hg' => nomatch hg')

variable [Instant τ]

/-- From an attempt on, failures leave no mark and one commit ends it.  The induction is on the
attempts that are left. -/
theorem marked_transactFrom (c : Config τ) (operation : String) (key : Option Key)
    (hok : ∀ r t, t.marks = ms ++ [.committed a r] → ok t r) (hbad : Failed c bad ms a)
    (attempt left : Nat) :
    Marked books ok bad (transactFrom c.retry operation key a attempt left) ms := by
  induction left generalizing attempt with
  | zero =>
    rintro t rfl
    refine (traces_ask _).2 ⟨trivial, fun r => ?_⟩
    cases r with
    | ok r => exact hok r _ rfl
    | error f =>
      have hmem := t.mem_trouble (.attempt a f)
      refine traces_settle (t := t.trouble _) hbad hmem fun g hg => ?_
      subst hg
      exact hbad _ _ _ rfl hmem (reports_lastComplaint ..)
  | succ left ih =>
    rintro t rfl
    refine (traces_ask _).2 ⟨trivial, fun r => ?_⟩
    cases r with
    | ok r => exact hok r _ rfl
    | error f =>
      have hmem := t.mem_trouble (.attempt a f)
      refine traces_settle (t := t.trouble _) hbad hmem fun g hg => ?_
      subst hg
      split
      · rw [traces_bind]
        unfold waitFor
        split
        · next reason hnone => exact hbad _ _ _ rfl hmem (.delay g _ reason hnone)
        · refine marked_bind (marked_bind (marked_log ?_)) _ rfl
          exact marked_pause (ih (attempt + 1))
      · exact hbad _ _ _ rfl hmem (reports_lastComplaint ..)

/-- A transaction leaves one mark, or fails as is reported of its last attempt. -/
theorem marked_transact (c : Config τ) (operation : String) (key : Option Key)
    (hok : ∀ r t, t.marks = ms ++ [.committed a r] → ok t r) (hbad : Failed c bad ms a) :
    Marked books ok bad (transact c operation a key) ms :=
  marked_transactFrom c operation key hok hbad 1 _

end

/-! ## Around transactions -/

section
variable {ok : Trail τ → Unit → Prop}

theorem marked_tell (e : Event) (ls : List ListenerId)
    (hok : ∀ t, t.marks = ms ++ ls.map (.told · e) → ok t ()) :
    Marked books ok bad (tell e ls) ms := by
  induction ls generalizing ms with
  | nil => exact fun t ht => hok t (by simpa using ht)
  | cons l rest ih =>
    unfold tell
    refine marked_bind (marked_notify fun answer => ?_)
    have hrest : Marked books ok bad (tell e rest) (ms ++ [.told l e]) :=
      ih fun t ht => hok t (by simpa using ht)
    cases answer with
    | none => exact hrest
    | some text => exact marked_bind (marked_log hrest)

theorem marked_announceAll (es : List Event)
    (hok : ∀ told t, Announced es told → t.marks = ms ++ told → ok t ()) :
    Marked books ok bad (announceAll es) ms := by
  induction es generalizing ms with
  | nil => exact fun t ht => hok [] t .nil (by simpa using ht)
  | cons e rest ih =>
    unfold announceAll announce
    refine marked_bind (marked_bind (marked_listeners fun ls => ?_))
    refine marked_tell e ls (ih fun told t htold ht => ?_)
    exact hok _ t (.cons e ls htold) (by simpa using ht)

theorem marked_announce (e : Event)
    (hok : ∀ told t, Announced [e] told → t.marks = ms ++ told → ok t ()) :
    Marked books ok bad (announce e) ms := by
  unfold announce
  refine marked_bind (marked_listeners fun ls => marked_tell e ls fun t ht => ?_)
  exact hok _ t (.cons e ls .nil) (by simpa using ht)

theorem marked_reportPolicy (key : Value) (stored : String) (hok : ∀ t, t.marks = ms → ok t ()) :
    Marked books ok bad (reportPolicy key stored) ms := by
  unfold reportPolicy
  split
  · exact hok
  · exact marked_log hok

end

/-- A step whose complaints are only logged ends well with what it answers, or with nothing. -/
theorem marked_bestEffort {α : Type} {ok : Trail τ → Option α → Prop} (event : String) (key : Key)
    {x : Operation τ α} (h : Marked books (fun t a => ok t (some a))
      (fun t f => (f.complaint? = none → bad t f) ∧ (f.complaint?.isSome → ok t.aside none)) x ms) :
    Marked books ok bad (bestEffort event key x) ms := by
  unfold bestEffort
  refine marked_tryCatch fun t ht => (traces_map _ _).2 ((h t ht).mono (fun _ _ h => h) ?_)
  intro t f hf
  cases f with
  | complaint c =>
    rw [traces_bind]
    exact ⟨trivial, fun _ => hf.2 rfl⟩
  | _ => exact hf.1 rfl

end Operation

end ExpiringStore
