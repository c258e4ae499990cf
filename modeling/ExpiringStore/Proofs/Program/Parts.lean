import ExpiringStore.Store.Removal
import ExpiringStore.Proofs.Program.Follows

/-!
# Parts of operations

What the parts that operations share have to do with the table.  Starting the store and telling
listeners make no transaction.  A transaction is attempted any number of times and committed at
most once; if it is not committed, a step of the storage has failed.

    startup c        ends well in the same past, or badly in a spoiled one
    transact c a     ends well with a committed, or badly in a spoiled past
    bestEffort x     ends as x does, its complaints aside
-/

namespace ExpiringStore.Operation

variable {τ : Type} {permits : List (Deed τ) → Transaction τ → Prop} {p : Past τ}
  {bad : Past τ → Failure → Prop}

/-! ## Starting -/

section
variable {ok : Past τ → Unit → Prop}

theorem follows_pass {setUp : Operation τ Unit} (g : GateName) (hok : ok p ())
    (h : Follows permits ok bad setUp p) :
    Follows permits ok bad (Gate.pass (ε := Failure) (atGate g) setUp) p := by
  unfold Gate.pass atGate
  rw [follows_bind, follows_gate]
  intro b
  split
  · exact hok
  · simp only [follows_bind, follows_discard, follows_gate]
    intro _ b
    split
    · simpa using hok
    · simpa [follows_bind] using h

theorem follows_dialect {ok : Past τ → String → Prop} (hok : ∀ name, ok p name)
    (hbad : ∀ f, bad p.spoiled f) : Follows permits ok bad dialect p := by
  unfold dialect
  rw [follows_bind]
  refine (follows_engine .dialect).2 fun r => ?_
  cases r with
  | none => exact hbad _
  | some name => exact hok name

theorem follows_openEngine (hok : ok p ()) (hbad : ∀ f, bad p.spoiled f) :
    Follows permits ok bad openEngine p := by
  unfold openEngine
  rw [follows_bind]
  refine (follows_engine .start).2 fun r => ?_
  rcases r with f | _ | _
  · dsimp only
    split
    · simpa [EngineStep.succeeded] using hbad f
    · simpa [EngineStep.succeeded] using hbad f
  · exact hok
  · show Follows permits ok bad (dialect >>= _) p
    rw [follows_bind]
    exact follows_dialect (fun name => (follows_log _).2 hok) hbad

theorem follows_createTable (hok : ok p ()) (hbad : ∀ f, bad p.spoiled f) :
    Follows permits ok bad createTable p := by
  unfold createTable
  rw [follows_bind]
  refine (follows_engine .isOpen).2 fun isOpen => ?_
  cases isOpen with
  | false => exact hbad _
  | true =>
    refine (follows_bind _ _).2 ((follows_engine .makeTable).2 fun r => ?_)
    rcases r with f | _ | _
    · -- Whatever becomes of the failure, the step has failed.
      cases f with
      | fault f =>
        show Follows permits ok bad (if _ then _ else _) p.spoiled
        split
        · simpa using hbad _
        · exact hbad _
      | _ => exact hbad _
    · show Follows permits ok bad (dialect >>= _) p
      rw [follows_bind]
      exact follows_dialect (fun name => (follows_log _).2 hok) hbad
    · exact (follows_log _).2 hok

theorem follows_start (c : Config τ) (hok : ok p ()) (hbad : ∀ f, bad p.spoiled f) :
    Follows permits ok bad (start c) p := by
  have hlast : Follows permits ok bad (do
      perform (.noteRunning true)
      log ⟨.info, "Cache store started", [
        ("allow_null_values", .bool c.allowNull),
        ("background_cleanup", .bool c.backgroundCleanup)]⟩) p := by simpa using hok
  have hsweeper : Follows permits ok bad (do
      if c.backgroundCleanup then perform (.sweeper .start)
      perform (.noteRunning true)
      log ⟨.info, "Cache store started", [
        ("allow_null_values", .bool c.allowNull),
        ("background_cleanup", .bool c.backgroundCleanup)]⟩) p := by
    dsimp only
    split
    · exact (follows_bind _ _).2 ((follows_sweeper .start).2 hlast)
    · exact hlast
  unfold start
  rw [follows_bind]
  refine follows_openEngine ?_ hbad
  dsimp only
  split
  · exact (follows_bind _ _).2 (follows_pass .schema hsweeper (follows_createTable hsweeper hbad))
  · exact hsweeper

/-- Starting the store makes no transaction, and fails only where the storage does. -/
theorem follows_startup (c : Config τ) (hok : ok p ()) (hbad : ∀ f, bad p.spoiled f) :
    Follows permits ok bad (startup c) p :=
  follows_pass .store hok (follows_start c hok hbad)

end

/-! ## Transactions -/

section
variable [Instant τ] [Delay τ] {a : Transaction τ} {ok : Past τ → a.Reply → Prop}

omit [Instant τ] [Delay τ] in
theorem follows_settle {meet : Fault → Operation τ a.Reply}
    (hmeet : ∀ f, Follows permits ok bad (meet f) p) (hbad : ∀ f, bad p f) (f : Failure) :
    Follows permits ok bad (settle meet (.error f)) p := by
  cases f with
  | fault f =>
    show Follows permits ok bad (if _ then _ else _) p
    split
    · exact hbad _
    · exact hmeet f
  | _ => exact hbad _

theorem follows_waitFor {ok : Past τ → Unit → Prop} (policy : RetryPolicy τ) (operation : String)
    (key : Option Key) (attempt : Nat) (f : Fault) (hok : ok p ()) (hbad : ∀ f, bad p f) :
    Follows permits ok bad (waitFor policy operation key attempt f) p := by
  unfold waitFor
  split
  · exact hbad _
  · simpa using hok

/-- From an attempt on, failures spoil the past and one commit ends it.  The induction is on the
attempts that are left; an attempt that failed leaves nothing behind but the spoiled past. -/
theorem follows_transactFrom (policy : RetryPolicy τ) (operation : String) (key : Option Key)
    (hp : permits p.deeds a) (hok : ∀ b r, ok ⟨p.deeds ++ [.committed a r], b⟩ r)
    (hbad : ∀ f, bad p.spoiled f) (attempt left : Nat) :
    Follows permits ok bad (transactFrom policy operation key a attempt left) p := by
  induction left generalizing p attempt with
  | zero =>
    unfold transactFrom
    rw [follows_bind, follows_attempt]
    exact ⟨hp, fun r => hok p.smooth r, follows_settle (fun f => hbad _) hbad⟩
  | succ left ih =>
    unfold transactFrom
    rw [follows_bind, follows_attempt]
    refine ⟨hp, fun r => hok p.smooth r, follows_settle (fun f => ?_) hbad⟩
    split
    · rw [follows_bind]
      exact follows_waitFor _ _ _ _ _ (ih (p := p.spoiled) hp hok hbad (attempt + 1)) hbad
    · exact hbad _

theorem follows_transact (c : Config τ) (operation : String) (key : Option Key)
    (hp : permits p.deeds a) (hok : ∀ b r, ok ⟨p.deeds ++ [.committed a r], b⟩ r)
    (hbad : ∀ f, bad p.spoiled f) :
    Follows permits ok bad (transact c operation a key) p :=
  follows_transactFrom c.retry operation key hp hok hbad 1 _

end

/-! ## Around transactions -/

section
variable {ok : Past τ → Unit → Prop}

theorem follows_tell (e : Event) (hok : ok p ()) (ls : List ListenerId) :
    Follows permits ok bad (tell e ls) p := by
  induction ls with
  | nil => exact hok
  | cons l rest ih =>
    unfold tell
    simp only [follows_bind, follows_notify]
    intro answer
    cases answer with
    | none => exact ih
    | some text => exact (follows_bind _ _).2 ((follows_log _).2 ih)

theorem follows_announce (e : Event) (hok : ok p ()) :
    Follows permits ok bad (announce e) p := by
  unfold announce
  simp only [follows_bind, follows_listeners]
  exact fun ls => follows_tell e hok ls

theorem follows_announceAll (hok : ok p ()) (es : List Event) :
    Follows permits ok bad (announceAll es) p := by
  induction es with
  | nil => exact hok
  | cons e rest ih =>
    unfold announceAll
    rw [follows_bind]
    exact follows_announce e ih

theorem follows_reportPolicy (key : Value) (stored : String) (hok : ok p ()) :
    Follows permits ok bad (reportPolicy key stored) p := by
  unfold reportPolicy
  split
  · exact hok
  · exact (follows_log _).2 hok

theorem follows_logLookup (operation : String) (key : Key) (hit : Bool)
    (extra : List (String × Value)) (hok : ok p ()) :
    Follows permits ok bad (logLookup operation key hit extra) p := (follows_log _).2 hok

end

/-- A step whose complaints are only logged ends well with what it answers, or with nothing. -/
theorem follows_bestEffort {α : Type} {ok : Past τ → Option α → Prop} (event : String) (key : Key)
    {x : Operation τ α} (h : Follows permits (fun p a => ok p (some a))
      (fun p f => ok p none ∧ bad p f) x p) :
    Follows permits ok bad (bestEffort event key x) p := by
  unfold bestEffort
  rw [follows_tryCatch, follows_map]
  refine h.mono (fun _ _ h => h) fun p f hf => ?_
  cases f with
  | complaint c => simpa using hf.1
  | _ => exact hf.2

end ExpiringStore.Operation
