import ExpiringStore.Proofs.Program.Abides
import ExpiringStore.Proofs.Table.All
import ExpiringStore.Store.Writing

/-!
# Fair answers

What is told of a payload is told by rows, not by failures: an answer is fair if the rows in it can
be decoded, and if it is no failure that is about a payload.  An operation yields what it is to if
it does so whenever all its answers are fair.  Starting the store and attempting a transaction yield
no failure about a payload either.

    yields (x >>= f)   ←   yields x, and yields (f a) for every a that x yields      (yields_bind)
    yields (e; f)      ←   yields (f r) for every fair answer r                       (yields_ask)
-/

namespace ExpiringStore

variable {τ α β : Type}

/-- Can the payload of the row be decoded, to no null unless there may be nulls? -/
def Row.Decodes (nulls : Bool) (row : Row τ) : Prop :=
  ∃ v, (∀ key, Payload.decode row.payload.value none key = .ok v) ∧
    (nulls = false → v ≠ .nullMarker)

def EngineStep.Fails (kind : Failure → Prop) : (step : EngineStep) → step.Reply → Prop
  | .start, r => ∀ f, r = .error f → kind f
  | .hasTable, r => ∀ f, r = .error f → kind f
  | .makeTable, r => ∀ f, r = .error f → kind f
  | _, _ => True

theorem EngineStep.Fails.mono {kind kind' : Failure → Prop} (weaker : ∀ f, kind f → kind' f)
    {step : EngineStep} {r : step.Reply} (h : step.Fails kind r) : step.Fails kind' r := by
  cases step with
  | start | hasTable | makeTable => exact fun f hf => weaker f (h f hf)
  | isOpen | dialect | dispose | release => trivial

/-- Can the rows in an answer be decoded, and is no failure about a payload? -/
def Effect.Fair (nulls : Bool) : (e : Effect τ) → e.Reply → Prop
  | .readClock, r => Blameless r
  | .attempt a, .ok r => ∀ p ∈ a.shown r, p.2.Decodes nulls
  | .attempt _, .error f => f.isAboutPayload = false
  | .engine step, r => step.Fails (fun f => f.isAboutPayload = false) r
  | _, _ => True

/-- Everything is permitted, and it is remembered whether all answers were fair. -/
abbrev Rule.fair (nulls : Bool) : Rule τ Prop where
  permits _ _ := True
  after told e r := told ∧ e.Fair nulls r

/-- Everything is permitted, so ends are all there is to show; no more answers are fair at the end
than so far. -/
theorem Program.abides_fair {nulls : Bool} {ends : Prop → α → Prop} {told : Prop}
    (x : Program τ α) (right : ∀ fair : Prop, (fair → told) → ∀ a, ends fair a) :
    x.Abides (Rule.fair nulls) ends told := by
  induction x generalizing told with
  | done a => exact right told id a
  | ask e next ih =>
    exact ⟨trivial, fun r => ih r fun fair h => right fair fun hfair => (h hfair).1⟩

namespace Operation

variable {nulls : Bool} {ok : α → Prop}

/-- If all answers are fair, an operation ends as it is to, and fails for no payload. -/
def Yields (nulls : Bool) (ok : α → Prop) (x : Operation τ α) : Prop :=
  Abides (Rule.fair nulls) (fun told a => told → ok a)
    (fun told f => told → f.isAboutPayload = false) x True

/-- After answers that were not all fair, nothing is to be shown. -/
theorem abides_of_told {x : Operation τ α} {told : Prop} (h : told → x.Yields nulls ok) :
    x.Abides (Rule.fair nulls) (fun told a => told → ok a)
      (fun told f => told → f.isAboutPayload = false) told := by
  by_cases fair : told
  · obtain rfl : told = True := eq_true fair
    exact h trivial
  · refine Program.abides_fair (ExceptT.run x) fun _ h r => ?_
    cases r with
    | ok a => exact fun hfair => absurd (h hfair) fair
    | error f => exact fun hfair => absurd (h hfair) fair

theorem Yields.mono {ok' : α → Prop} {x : Operation τ α} (h : x.Yields nulls ok)
    (hok : ∀ a, ok a → ok' a) : x.Yields nulls ok' :=
  Abides.mono h (fun _ a ha told => hok a (ha told)) fun _ _ h => h

theorem yields_pure {a : α} (h : ok a) : (pure a : Operation τ α).Yields nulls ok := fun _ => h

theorem yields_throw {f : Failure} (h : f.isAboutPayload = false) :
    (throw f : Operation τ α).Yields nulls ok := fun _ => h

theorem yields_bind {ok' : β → Prop} {x : Operation τ α} {f : α → Operation τ β}
    (hx : x.Yields nulls ok) (hf : ∀ a, ok a → (f a).Yields nulls ok') :
    (x >>= f).Yields nulls ok' :=
  (abides_bind x f).2 (Abides.mono hx (fun _ a ha => abides_of_told fun told => hf a (ha told))
    fun _ _ h => h)

theorem yields_checked {ok : β → Prop} {r : Except Failure α} {f : α → Operation τ β}
    (blameless : Blameless r) (h : ∀ a, (f a).Yields nulls ok) :
    (ofExcept r >>= f).Yields nulls ok := by
  cases r with
  | ok a => exact h a
  | error failure => exact yields_throw (blameless failure rfl)

theorem yields_map {ok' : β → Prop} {x : Operation τ α} (g : α → β)
    (hx : x.Yields nulls fun a => ok' (g a)) : (g <$> x).Yields nulls ok' := (abides_map g x).2 hx

theorem yields_tryCatch {x : Operation τ α} {h : Failure → Operation τ α}
    (hx : x.Yields nulls ok) (hh : ∀ f, f.isAboutPayload = false → (h f).Yields nulls ok) :
    (tryCatch x h).Yields nulls ok :=
  (abides_tryCatch x h).2 (Abides.mono hx (fun _ _ h => h) fun _ f hf =>
    abides_of_told fun told => hh f (hf told))

theorem yields_ask {e : Effect τ} {f : e.Reply → Operation τ β} {ok : β → Prop}
    (h : ∀ r, e.Fair nulls r → (f r).Yields nulls ok) : (perform e >>= f).Yields nulls ok :=
  (abides_ask e).2 ⟨trivial, fun r => abides_of_told fun told => h r told.2⟩

theorem yields_perform {e : Effect τ} {ok : e.Reply → Prop} (h : ∀ r, e.Fair nulls r → ok r) :
    (perform e).Yields nulls ok := ⟨trivial, fun r told => h r told.2⟩

/-! ## Parts of operations -/

theorem yields_log (entry : Log.Entry) :
    (log entry : Operation τ Unit).Yields nulls (fun _ => True) :=
  yields_perform fun _ _ => trivial

theorem yields_bookkeep (b : Bookkeeping τ) : (bookkeep b).Yields nulls (fun _ => True) :=
  yields_perform fun _ _ => trivial

theorem yields_tell (e : Event) (ls : List ListenerId) :
    (tell e ls : Operation τ Unit).Yields nulls (fun _ => True) := by
  induction ls with
  | nil => exact yields_pure trivial
  | cons l rest ih =>
    refine yields_ask fun answer _ => ?_
    cases answer with
    | none => exact ih
    | some text => exact yields_bind (yields_log _) fun _ _ => ih

theorem yields_announce (e : Event) :
    (announce e : Operation τ Unit).Yields nulls (fun _ => True) :=
  yields_ask fun ls _ => yields_tell e ls

theorem yields_reportPolicy (key : Value) (stored : String) :
    (reportPolicy key stored : Operation τ Unit).Yields nulls (fun _ => True) := by
  unfold reportPolicy
  split
  · exact yields_pure trivial
  · exact yields_log _

theorem yields_bestEffort (event : String) (key : Key) {x : Operation τ α}
    (hx : x.Yields nulls (fun _ => True)) :
    (bestEffort event key x).Yields nulls (fun _ => True) := by
  refine yields_tryCatch (yields_map some hx) fun f hf => ?_
  cases f with
  | complaint x => exact yields_bind (yields_log _) fun _ _ => yields_pure trivial
  | _ => exact yields_throw hf

/-- Setting up what a gate guards is all that may fail there. -/
theorem yields_pass {setUp : Operation τ Unit} (g : GateName)
    (h : setUp.Yields nulls (fun _ => True)) :
    (Gate.pass (ε := Failure) (atGate g) setUp).Yields nulls (fun _ => True) := by
  refine yields_ask fun b _ => ?_
  split
  · exact yields_pure trivial
  refine yields_ask fun _ _ => yields_ask fun b _ => ?_
  split
  · exact yields_ask fun _ _ => yields_pure trivial
  refine yields_bind (yields_tryCatch h fun f hf => ?_) fun _ _ => ?_
  · exact yields_ask fun _ _ => yields_throw hf
  · exact yields_ask fun _ _ => yields_ask fun _ _ => yields_pure trivial

theorem yields_readClock : (readClock : Operation τ τ).Yields nulls (fun _ => True) := by
  refine ⟨trivial, fun r => ?_⟩
  cases r with
  | ok now => exact fun _ => trivial
  | error f => exact fun told => told.2 f rfl

theorem yields_dialect : (dialect : Operation τ String).Yields nulls (fun _ => True) := by
  refine yields_ask fun name _ => ?_
  cases name with
  | none => exact yields_throw rfl
  | some name => exact yields_pure trivial

theorem yields_openEngine : (openEngine : Operation τ Unit).Yields nulls (fun _ => True) := by
  refine yields_ask fun r fair => ?_
  rcases r with f | _ | _
  · have hthrow : (throw f : Operation τ Unit).Yields nulls (fun _ => True) :=
      yields_throw (fair f rfl)
    dsimp only
    split
    · exact yields_bind (yields_log _) fun _ _ => hthrow
    · exact hthrow
  · exact yields_pure trivial
  · exact yields_bind yields_dialect fun name _ => yields_log _

theorem yields_createTable : (createTable : Operation τ Unit).Yields nulls (fun _ => True) := by
  refine yields_ask fun isOpen _ => ?_
  cases isOpen with
  | false => exact yields_throw rfl
  | true =>
    refine yields_ask fun r fair => ?_
    rcases r with f | _ | _
    · cases f with
      | fault f =>
        dsimp only
        split
        · exact yields_bind (yields_log _) fun _ _ => yields_throw rfl
        · exact yields_throw rfl
      | _ => exact yields_throw (fair _ rfl)
    · exact yields_bind yields_dialect fun name _ => yields_log _
    · exact yields_log _

theorem yields_start (c : Config τ) : (start c).Yields nulls (fun _ => True) := by
  have hlast : Yields nulls (fun _ => True) (do
      perform (.noteRunning true)
      log ⟨.info, "Cache store started", [
        ("allow_null_values", .bool c.allowNull),
        ("background_cleanup", .bool c.backgroundCleanup)]⟩ : Operation τ Unit) :=
    yields_ask fun _ _ => yields_log _
  have hsweeper : Yields nulls (fun _ => True) (do
      if c.backgroundCleanup then perform (.sweeper .start)
      perform (.noteRunning true)
      log ⟨.info, "Cache store started", [
        ("allow_null_values", .bool c.allowNull),
        ("background_cleanup", .bool c.backgroundCleanup)]⟩ : Operation τ Unit) := by
    dsimp only
    split
    · exact yields_ask fun _ _ => hlast
    · exact hlast
  refine yields_bind yields_openEngine fun _ _ => ?_
  dsimp only
  split
  · exact yields_bind (yields_pass .schema yields_createTable) fun _ _ => hsweeper
  · exact hsweeper

/-- No failure to start the store is about a payload. -/
theorem yields_startup (c : Config τ) : (startup c).Yields nulls (fun _ => True) :=
  yields_pass .store (yields_start c)

/-! ## Transactions -/

section
variable [Instant τ] [Delay τ]

omit [Instant τ] [Delay τ] in
theorem yields_lastComplaint (operation : String) (key : Option Key) (attempt : Nat) (f : Fault) :
    (throw (lastComplaint operation key attempt f) : Operation τ α).Yields nulls ok := by
  refine yields_throw ?_
  unfold lastComplaint
  split <;> rfl

theorem yields_waitFor (p : RetryPolicy τ) (operation : String) (key : Option Key) (attempt : Nat)
    (f : Fault) : (waitFor p operation key attempt f).Yields nulls (fun _ => True) := by
  unfold waitFor
  split
  · exact yields_throw rfl
  · exact yields_bind (yields_log _) fun _ _ => yields_perform fun _ _ => trivial

/-- A transaction answers rows that can be decoded.  The induction is on the attempts that are
left. -/
theorem yields_transactFrom (p : RetryPolicy τ) (operation : String) (key : Option Key)
    (t : Transaction τ) (attempt left : Nat) : (transactFrom p operation key t attempt left).Yields
      nulls (fun r => ∀ q ∈ t.shown r, q.2.Decodes nulls) := by
  have hsettle {meet : Fault → Operation τ t.Reply} (hmeet : ∀ f, (meet f).Yields nulls
      (fun r => ∀ q ∈ t.shown r, q.2.Decodes nulls)) :
      (perform (.attempt t) >>= settle meet).Yields nulls
        (fun r => ∀ q ∈ t.shown r, q.2.Decodes nulls) := by
    refine yields_ask fun r fair => ?_
    cases r with
    | ok r => exact yields_pure fair
    | error f =>
      cases f with
      | fault f =>
        show Yields nulls _ (if _ then _ else _)
        split
        · exact yields_throw rfl
        · exact hmeet f
      | _ => exact yields_throw fair
  induction left generalizing attempt with
  | zero => exact hsettle fun f => yields_lastComplaint operation key attempt f
  | succ left ih =>
    refine hsettle fun f => ?_
    split
    · exact yields_bind (yields_waitFor p operation key attempt f) fun _ _ => ih (attempt + 1)
    · exact yields_lastComplaint operation key attempt f

theorem yields_transact (c : Config τ) (operation : String) (t : Transaction τ)
    (key : Option Key) : (transact c operation t key).Yields nulls
      (fun r => ∀ q ∈ t.shown r, q.2.Decodes nulls) :=
  yields_transactFrom c.retry operation key t 1 _

end

end Operation

end ExpiringStore
