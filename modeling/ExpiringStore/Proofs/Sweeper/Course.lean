import ExpiringStore.Rehearsal.Handler

/-!
# The course of a sweeper

Somebody starts and stops a sweeper, one call after the other has returned, while the intervals of
its loop pass and its sweeps end or do not.  A stop takes the flag down and gives the signal, and
then waits for the loop: the loop heeds the signal, or its interval passes all the same and one more
sweep begins, or its sweep ends, or the stop loses patience and cancels it.

    poised t, step t m t'      →   poised t'                                         (Poised.step)
    running                    →   one loop, which waits for the signal or sweeps
    not running, no stop under way   →   no loop
    every course of a new sweeper is sound                                           (course_sound)
-/

namespace ExpiringStore.Sweeper

variable {ρ : Type}

/-! ## Steps -/

/-- Where a caller of a sweeper is. -/
inductive Stage where
  /-- Nothing is called. -/
  | free
  /-- A stop waits for this loop to end. -/
  | stopping (loop : Nat)
  deriving DecidableEq

/-- A sweeper with its caller. -/
structure Scene (ρ : Type) where
  sweeper : Sweeper ρ
  stage : Stage := .free

/-- What happens. -/
inductive Move (ρ : Type) where
  | start
  /-- A stop is called, and returns at once if there is nothing to wait for. -/
  | stop
  /-- The loop that a stop waits for heeds the signal. -/
  | heed
  /-- The interval of a loop passes and its sweep begins. -/
  | expire (loop : Nat) (sweep : ρ)
  /-- The sweep of a loop ends, completed or not. -/
  | finish (loop : Nat) (completed : Bool)
  /-- A stop has waited long enough and cancels the loop. -/
  | cancel
  /-- The loop has ended, and the stop that waited for it returns. -/
  | leave
  /-- A sweep apart from the loop ends. -/
  | once (completed : Bool)

/-- The flag is taken down, and the loop is not the sweeper's any more. -/
def lower (s : Sweeper ρ) : Sweeper ρ := { s with running := false, own := none }

/-- What may happen when. -/
inductive Step : Scene ρ → Move ρ → Scene ρ → Prop
  | start (s : Sweeper ρ) : Step ⟨s, .free⟩ .start ⟨s.start, .free⟩
  | idle {s : Sweeper ρ} (idle : s.isIdle = true) : Step ⟨s, .free⟩ .stop ⟨s, .free⟩
  | ended {s : Sweeper ρ} (busy : s.isIdle = false) (ended : s.ownLoop? = none) :
      Step ⟨s, .free⟩ .stop ⟨s.lower, .free⟩
  | stop {s : Sweeper ρ} {i : Nat} {l : Loop ρ} (busy : s.isIdle = false)
      (alive : s.ownLoop? = some (i, l)) : Step ⟨s, .free⟩ .stop ⟨s.lower, .stopping i⟩
  | heed {s : Sweeper ρ} {i : Nat} (waits : s.loop? i = some (.waiting s.starts)) :
      Step ⟨s, .stopping i⟩ .heed ⟨s.cancel i, .stopping i⟩
  | expire {s : Sweeper ρ} {i signal : Nat} (stage : Stage) (sweep : ρ)
      (waits : s.loop? i = some (.waiting signal)) :
      Step ⟨s, stage⟩ (.expire i sweep) ⟨s.expire i sweep, stage⟩
  | finish {s : Sweeper ρ} {i : Nat} {rest : ρ} (stage : Stage) (completed : Bool)
      (sweeps : s.loop? i = some (.sweeping rest)) :
      Step ⟨s, stage⟩ (.finish i completed) ⟨s.finish i completed, stage⟩
  | cancel {s : Sweeper ρ} {i : Nat} (alive : (s.loop? i).isSome = true) :
      Step ⟨s, .stopping i⟩ .cancel ⟨s.cancel i, .stopping i⟩
  | leave {s : Sweeper ρ} {i : Nat} (ended : s.loop? i = none) :
      Step ⟨s, .stopping i⟩ .leave ⟨s, .free⟩
  | once (s : Sweeper ρ) (stage : Stage) (completed : Bool) :
      Step ⟨s, stage⟩ (.once completed) ⟨s.count completed, stage⟩

/-- One step after another. -/
inductive Course : Scene ρ → List (Move ρ) → Scene ρ → Prop
  | nil (t : Scene ρ) : Course t [] t
  | cons {t t₁ t' : Scene ρ} {m : Move ρ} {ms : List (Move ρ)} (first : Step t m t₁)
      (rest : Course t₁ ms t') : Course t (m :: ms) t'

/-! ## Poise -/

/-- The loop of this number waits for the signal or sweeps. -/
def Busy (s : Sweeper ρ) : Prop :=
  ∃ l, s.loops = [(s.starts, l)] ∧ ∀ signal, l = .waiting signal → signal = s.starts

/-- How a sweeper is poised between its steps. -/
inductive Poised : Scene ρ → Prop
  | idle {s : Sweeper ρ} (down : s.running = false) (own : s.own = none) (loops : s.loops = []) :
      Poised ⟨s, .free⟩
  | running {s : Sweeper ρ} (up : s.running = true) (own : s.own = some s.starts) (busy : s.Busy) :
      Poised ⟨s, .free⟩
  | stopping {s : Sweeper ρ} (down : s.running = false) (own : s.own = none)
      (loops : s.loops = [] ∨ s.Busy) : Poised ⟨s, .stopping s.starts⟩

/-- A sweeper that was never started. -/
def fresh (interval shutdownTimeout : Number) : Scene ρ := ⟨{ interval, shutdownTimeout }, .free⟩

theorem poised_fresh (interval shutdownTimeout : Number) :
    Poised (fresh interval shutdownTimeout : Scene ρ) := .idle rfl rfl rfl

section
variable {s : Sweeper ρ} {i : Nat} {l : Loop ρ}

theorem ownLoop?_eq_some : s.ownLoop? = some (i, l) ↔ s.own = some i ∧ s.loop? i = some l := by
  unfold ownLoop?
  cases s.own with
  | none => simp
  | some j =>
    cases hj : s.loop? j with
    | none =>
      simp only [Option.bind_eq_bind, Option.bind_some, hj, Option.bind_none, Option.some.injEq]
      constructor
      · intro h
        cases h
      · rintro ⟨rfl, h⟩
        cases hj.symm.trans h
    | some l' =>
      simp only [Option.bind_eq_bind, Option.bind_some, hj, Option.some.injEq, Prod.mk.injEq]
      constructor
      · rintro ⟨rfl, rfl⟩
        exact ⟨rfl, hj⟩
      · rintro ⟨rfl, h⟩
        exact ⟨rfl, Option.some.inj (hj.symm.trans h)⟩

theorem loop?_nil (h : s.loops = []) : s.loop? i = none := by
  unfold loop?
  rw [h]
  rfl

/-- The only loop is the one of the last start. -/
theorem Busy.loop? (busy : s.Busy) (h : s.loop? i = some l) :
    i = s.starts ∧ s.loops = [(s.starts, l)] := by
  obtain ⟨l', hloops, -⟩ := busy
  unfold Sweeper.loop? at h
  rw [hloops] at h ⊢
  by_cases hi : i = s.starts
  · subst hi
    simp at h
    exact ⟨rfl, by rw [h]⟩
  · have hne : (i == s.starts) = false := beq_eq_false_iff_ne.2 hi
    rw [List.lookup_cons, hne] at h
    cases h

theorem cancel_loops (h : s.loops = [(i, l)]) : (s.cancel i).loops = [] := by
  simp [cancel, h]

theorem setLoop_loops {l' : Loop ρ} (h : s.loops = [(i, l)]) :
    (s.setLoop i l').loops = [(i, l')] := by
  simp [setLoop, h]

end

/-- Counting a sweep is all that counting does. -/
theorem count_same (s : Sweeper ρ) (completed : Bool) :
    (s.count completed).running = s.running ∧ (s.count completed).own = s.own ∧
      (s.count completed).starts = s.starts ∧ (s.count completed).loops = s.loops := by
  cases completed <;> exact ⟨rfl, rfl, rfl, rfl⟩

theorem finish_sweeping {s : Sweeper ρ} {i : Nat} {rest : ρ}
    (sweeps : s.loop? i = some (.sweeping rest)) (completed : Bool) :
    s.finish i completed = if (s.count completed).running
      then (s.count completed).setLoop i (.waiting (s.count completed).starts)
      else (s.count completed).cancel i := by
  unfold finish
  rw [sweeps]

/-- What is alive belongs to the one loop that there is. -/
theorem Poised.loop? {s : Sweeper ρ} {stage : Stage} (h : Poised ⟨s, stage⟩) {i : Nat}
    {l : Loop ρ} (alive : s.loop? i = some l) : i = s.starts ∧ s.loops = [(s.starts, l)] := by
  cases h with
  | idle _ _ loops =>
    rw [loop?_nil loops] at alive
    cases alive
  | running _ _ busy => exact busy.loop? alive
  | stopping _ _ loops =>
    rcases loops with loops | busy
    · rw [loop?_nil loops] at alive
      cases alive
    · exact busy.loop? alive

/-- The sweeper as it stands when its one loop does something else. -/
theorem Poised.goesOn {s s' : Sweeper ρ} {stage : Stage} (h : Poised ⟨s, stage⟩) {l l' : Loop ρ}
    (was : s.loops = [(s.starts, l)]) (loops : s'.loops = [(s.starts, l')])
    (heeds : ∀ signal, l' = .waiting signal → signal = s.starts) (running : s'.running = s.running)
    (own : s'.own = s.own) (starts : s'.starts = s.starts) : Poised ⟨s', stage⟩ := by
  have busy : s'.Busy := ⟨l', by rw [starts]; exact loops, by rw [starts]; exact heeds⟩
  cases h with
  | idle _ _ none =>
    rw [none] at was
    cases was
  | running up mine _ =>
    exact .running (running.trans up) (by rw [own, starts]; exact mine) busy
  | stopping down mine _ =>
    rw [← starts]
    exact .stopping (running.trans down) (own.trans mine) (.inr busy)

/-- Every step leaves a sweeper poised. -/
theorem Poised.step {t t' : Scene ρ} {m : Move ρ} (h : Poised t) (step : Step t m t') :
    Poised t' := by
  cases step with
  | start s =>
    cases h with
    | idle down own loops =>
      have hstart : s.start = { s with
          running := true, loops := [(s.starts + 1, .waiting (s.starts + 1))],
          own := some (s.starts + 1), starts := s.starts + 1 } := by
        simp [start, down, loops]
      rw [hstart]
      exact .running rfl rfl ⟨_, rfl, fun signal h => (Loop.waiting.inj h).symm⟩
    | running up own busy =>
      have hstart : s.start = s := if_pos up
      rw [hstart]
      exact .running up own busy
  | idle idle => exact h
  | @ended s busy ended =>
    cases h with
    | idle down own loops => exact .idle rfl rfl loops
    | running up own hbusy =>
      obtain ⟨l, hloops, -⟩ := hbusy
      have halive : s.ownLoop? = some (s.starts, l) :=
        ownLoop?_eq_some.2 ⟨own, by simp [Sweeper.loop?, hloops]⟩
      rw [halive] at ended
      cases ended
  | @stop s i l busy alive =>
    cases h with
    | idle down own loops => simp [ownLoop?, own] at alive
    | running up own hbusy =>
      obtain ⟨hown, -⟩ := ownLoop?_eq_some.1 alive
      obtain rfl := Option.some.inj (own.symm.trans hown)
      exact .stopping rfl rfl (.inr hbusy)
  | @heed s i waits =>
    obtain ⟨rfl, hloops⟩ := h.loop? waits
    cases h with
    | stopping down own _ => exact .stopping down own (.inl (cancel_loops hloops))
  | @expire s i signal stage sweep waits =>
    obtain ⟨rfl, hloops⟩ := h.loop? waits
    have hexpire : s.expire s.starts sweep = s.setLoop s.starts (.sweeping sweep) := by
      simp only [expire, waits]
    rw [hexpire]
    exact h.goesOn hloops (setLoop_loops hloops) nofun rfl rfl rfl
  | @finish s i rest stage completed sweeps =>
    obtain ⟨rfl, hloops⟩ := h.loop? sweeps
    obtain ⟨hrunning, hown, hstarts, hcount⟩ := count_same s completed
    rw [finish_sweeping sweeps]
    split
    · -- The sweeper is running, and its loop waits for the next interval.
      rw [hstarts]
      have hwaits : ((s.count completed).setLoop s.starts (.waiting s.starts)).loops =
          [(s.starts, .waiting s.starts)] := setLoop_loops (hcount.trans hloops)
      exact h.goesOn hloops hwaits (fun _ h => (Loop.waiting.inj h).symm) hrunning hown hstarts
    · next hdown =>
      rw [hrunning] at hdown
      have hended : ((s.count completed).cancel s.starts).loops = [] :=
        cancel_loops (hcount.trans hloops)
      cases h with
      | idle _ _ loops =>
        rw [loops] at hloops
        cases hloops
      | running up _ _ => exact absurd up hdown
      | stopping down own _ =>
        have hstopping : Poised ⟨(s.count completed).cancel s.starts,
            .stopping (s.count completed).starts⟩ :=
          .stopping (hrunning.trans down) (hown.trans own) (.inl hended)
        rw [hstarts] at hstopping
        exact hstopping
  | @cancel s i alive =>
    obtain ⟨l, hl⟩ := Option.isSome_iff_exists.1 alive
    obtain ⟨rfl, hloops⟩ := h.loop? hl
    cases h with
    | stopping down own _ => exact .stopping down own (.inl (cancel_loops hloops))
  | @leave s i ended =>
    cases h with
    | stopping down own loops =>
      refine .idle down own ?_
      rcases loops with loops | ⟨l, hloops, -⟩
      · exact loops
      · simp [Sweeper.loop?, hloops] at ended
  | once s stage completed =>
    cases completed with
    | false => exact h
    | true =>
      cases h with
      | idle down own loops => exact .idle down own loops
      | running up own busy => exact .running up own busy
      | stopping down own loops => exact .stopping down own loops

theorem Poised.course {t t' : Scene ρ} {ms : List (Move ρ)} (h : Poised t)
    (course : Course t ms t') : Poised t' := by
  induction course with
  | nil => exact h
  | cons first _ ih => exact ih (h.step first)

/-! ## Sound courses -/

def Move.completes : Move ρ → Bool
  | .finish _ completed | .once completed => completed
  | _ => false

def Move.Returns (m : Move ρ) (t : Scene ρ) : Prop :=
  m = .leave ∨ m = .stop ∧ t.stage = .free

theorem sweeps_count (s : Sweeper ρ) (completed : Bool) :
    (s.count completed).sweeps = s.sweeps + if completed then 1 else 0 := by
  cases completed <;> rfl

/-- Only completed cleanups are counted. -/
theorem Step.sweeps {t t' : Scene ρ} {m : Move ρ} (step : Step t m t') :
    t'.sweeper.sweeps = t.sweeper.sweeps + if m.completes then 1 else 0 := by
  cases step with
  | start s =>
    show s.start.sweeps = s.sweeps
    unfold Sweeper.start
    split <;> rfl
  | expire stage sweep waits =>
    simp only [Sweeper.expire, waits]
    rfl
  | @finish s i rest stage completed sweeps =>
    refine Eq.trans ?_ (sweeps_count s completed)
    rw [finish_sweeping sweeps]
    split <;> rfl
  | once s stage completed => exact sweeps_count s completed
  | _ => rfl

theorem Course.sweeps {t t' : Scene ρ} {ms : List (Move ρ)} (course : Course t ms t') :
    t'.sweeper.sweeps = t.sweeper.sweeps + ms.countP Move.completes := by
  induction course with
  | nil => rfl
  | cons first _ ih =>
    rw [ih, first.sweeps, List.countP_cons]
    omega

/-- A sweeper that is down, without a loop and without a stop under way. -/
structure Scene.AtRest (t : Scene ρ) : Prop where
  stage : t.stage = .free
  down : t.sweeper.running = false
  loops : t.sweeper.loops = []

theorem Poised.atRest {t : Scene ρ} (h : Poised t) (free : t.stage = .free)
    (down : t.sweeper.running = false) : t.AtRest := by
  cases h with
  | idle down _ loops => exact ⟨rfl, down, loops⟩
  | running up _ _ => cases up.symm.trans down
  | stopping _ _ _ => cases free

/-- A stop that returns leaves the sweeper at rest. -/
theorem Poised.returned {t t' : Scene ρ} {m : Move ρ} (h : Poised t) (step : Step t m t')
    (returns : m.Returns t') : t'.AtRest := by
  have hpoised := h.step step
  cases step with
  | idle idle =>
    refine hpoised.atRest rfl ?_
    simp only [isIdle, Bool.and_eq_true, Bool.not_eq_true'] at idle
    exact idle.1
  | ended busy ended => exact hpoised.atRest rfl rfl
  | leave ended =>
    cases h with
    | stopping down _ _ => exact hpoised.atRest rfl down
  | stop busy alive =>
    rcases returns with returns | ⟨-, free⟩
    · cases returns
    · cases free
  | _ => rcases returns with returns | ⟨returns, -⟩ <;> cases returns

/-- At rest nothing happens but stops that have nothing to do and sweeps apart from the loop, until
the sweeper is started. -/
theorem Scene.AtRest.step {t t' : Scene ρ} {m : Move ρ} (rest : t.AtRest) (step : Step t m t')
    (hm : m ≠ .start) :
    t'.AtRest ∧ (∀ i sweep, m ≠ .expire i sweep) ∧ ∀ i b, m ≠ .finish i b := by
  obtain ⟨stage, down, loops⟩ := rest
  cases step with
  | start => exact absurd rfl hm
  | idle idle => exact ⟨⟨rfl, down, loops⟩, nofun, nofun⟩
  | ended busy ended => exact ⟨⟨rfl, rfl, loops⟩, nofun, nofun⟩
  | stop busy alive =>
    have halive := (ownLoop?_eq_some.1 alive).2
    rw [loop?_nil loops] at halive
    cases halive
  | heed | cancel | leave => cases stage
  | expire _ _ waits =>
    rw [loop?_nil loops] at waits
    cases waits
  | finish _ _ sweeps =>
    rw [loop?_nil loops] at sweeps
    cases sweeps
  | once s stage' completed =>
    obtain ⟨hrunning, -, -, hloops⟩ := count_same s completed
    exact ⟨⟨stage, hrunning.trans down, hloops.trans loops⟩, nofun, nofun⟩

theorem Scene.AtRest.course {t t' : Scene ρ} {ms : List (Move ρ)} (rest : t.AtRest)
    (course : Course t ms t') (still : .start ∉ ms) : t'.AtRest ∧
      (∀ i sweep, .expire i sweep ∉ ms) ∧ ∀ i b, .finish i b ∉ ms := by
  induction course with
  | nil => exact ⟨rest, fun _ _ => List.not_mem_nil, fun _ _ => List.not_mem_nil⟩
  | cons first _ ih =>
    obtain ⟨hfirst, hlater⟩ := not_or.1 (mt List.mem_cons.2 still)
    obtain ⟨hrest, hexpire, hfinish⟩ := rest.step first (Ne.symm hfirst)
    obtain ⟨hend, hexpires, hfinishes⟩ := ih hrest hlater
    refine ⟨hend, fun i sweep mem => ?_, fun i b mem => ?_⟩
    · rcases List.mem_cons.1 mem with h | h
      · exact hexpire i sweep h.symm
      · exact hexpires i sweep h
    · rcases List.mem_cons.1 mem with h | h
      · exact hfinish i b h.symm
      · exact hfinishes i b h

/-- A sweep that fails while the sweeper is running leaves its loop waiting for the next
interval. -/
theorem Poised.survives {t t' : Scene ρ} {i : Nat} (h : Poised t)
    (up : t.sweeper.running = true) (step : Step t (.finish i false) t') :
    t'.sweeper.running = true ∧ t'.sweeper.loops = [(i, .waiting t'.sweeper.starts)] := by
  cases step with
  | @finish s i rest stage completed sweeps =>
    obtain ⟨rfl, hloops⟩ := h.loop? sweeps
    have hfinish : s.finish s.starts false = s.setLoop s.starts (.waiting s.starts) :=
      (finish_sweeping sweeps false).trans (if_pos up)
    rw [hfinish]
    exact ⟨up, setLoop_loops hloops⟩

theorem Poised.atMostOne {t : Scene ρ} (h : Poised t) : t.sweeper.loops.length ≤ 1 ∧
    (t.sweeper.running = true → t.sweeper.loops.length = 1) := by
  cases h with
  | idle down _ loops =>
    rw [loops]
    exact ⟨Nat.zero_le 1, fun up => absurd (up.symm.trans down) nofun⟩
  | running _ _ busy =>
    obtain ⟨l, hloops, -⟩ := busy
    rw [hloops]
    exact ⟨Nat.le_refl 1, fun _ => rfl⟩
  | stopping down _ loops =>
    refine ⟨?_, fun up => absurd (up.symm.trans down) nofun⟩
    rcases loops with loops | ⟨l, loops, -⟩
    · rw [loops]
      exact Nat.zero_le 1
    · rw [loops]
      exact Nat.le_refl 1

/-- The course of a sweeper that was never started before: there is at most one loop, and one while
it is running; after a stop has returned no loop is alive and no sweep begins or ends until the next
start; a sweep that fails leaves the loop waiting; and the completed cleanups are counted. -/
theorem course_sound (interval shutdownTimeout : Number) {ms : List (Move ρ)} {t : Scene ρ}
    (course : Course (fresh interval shutdownTimeout) ms t) :
    t.sweeper.loops.length ≤ 1 ∧
      (t.sweeper.running = true → t.sweeper.loops.length = 1) ∧
      (∀ m t₁ later t₂, Step t m t₁ → m.Returns t₁ → Course t₁ later t₂ → .start ∉ later →
        t₂.sweeper.loops = [] ∧ (∀ i sweep, .expire i sweep ∉ later) ∧
          ∀ i b, .finish i b ∉ later) ∧
      (∀ i t₁, t.sweeper.running = true → Step t (.finish i false) t₁ →
        t₁.sweeper.running = true ∧ t₁.sweeper.loops = [(i, .waiting t₁.sweeper.starts)]) ∧
      t.sweeper.sweeps = ms.countP Move.completes := by
  have hpoised := (poised_fresh interval shutdownTimeout).course course
  refine ⟨hpoised.atMostOne.1, hpoised.atMostOne.2, ?_, fun i t₁ => hpoised.survives,
    course.sweeps.trans (Nat.zero_add _)⟩
  intro m t₁ later t₂ step returns rest still
  obtain ⟨hrest, hbegins, hends⟩ := (hpoised.returned step returns).course rest still
  exact ⟨hrest.loops, hbegins, hends⟩

/-- A sweep that outlives the patience of a stop is cancelled, and the stop returns. -/
theorem course_sound_cancelled : ∃ t : Scene Nat,
    Course (fresh (.int 300) (.int 5)) [.start, .expire 1 0, .stop, .cancel, .leave] t ∧
      t.sweeper.loops.length ≤ 1 ∧ t.sweeper.sweeps = 0 := by
  let started : Sweeper Nat := (fresh (.int 300) (.int 5)).sweeper.start
  have waits : started.loop? 1 = some (.waiting 1) := rfl
  have alive : (started.expire 1 0).ownLoop? = some (1, .sweeping 0) := rfl
  have course : Course (fresh (.int 300) (.int 5) : Scene Nat)
      [.start, .expire 1 0, .stop, .cancel, .leave] _ :=
    .cons (.start _) <| .cons (.expire .free 0 waits) <| .cons (.stop rfl alive) <|
      .cons (.cancel rfl) <| .cons (.leave rfl) <| .nil _
  have hsound := course_sound _ _ course
  exact ⟨_, course, hsound.1, hsound.2.2.2.2⟩

/-- A stop can always return, at once or after the loop was cancelled. -/
theorem Poised.stop_returns {s : Sweeper ρ} {i : Nat} (h : Poised ⟨s, .stopping i⟩) :
    ∃ ms t, Course ⟨s, .stopping i⟩ (ms ++ [.leave]) t ∧ t.AtRest ∧ .start ∉ ms := by
  cases hloop : s.loop? i with
  | none =>
    have hstep : Step ⟨s, .stopping i⟩ .leave ⟨s, .free⟩ := .leave hloop
    exact ⟨[], _, .cons hstep (.nil _), h.returned hstep (.inl rfl), List.not_mem_nil⟩
  | some l =>
    obtain ⟨rfl, hloops⟩ := h.loop? hloop
    have hcancel : Step ⟨s, .stopping s.starts⟩ .cancel ⟨s.cancel s.starts, .stopping s.starts⟩ :=
      .cancel (by rw [hloop]; rfl)
    have hleave : Step ⟨s.cancel s.starts, .stopping s.starts⟩ .leave ⟨s.cancel s.starts, .free⟩ :=
      .leave (loop?_nil (cancel_loops hloops))
    exact ⟨[.cancel], _, .cons hcancel (.cons hleave (.nil _)),
      (h.step hcancel).returned hleave (.inl rfl), by simp⟩

/-! ## The sweeper that runs -/

/-- The signal ends a loop that waits for it. -/
theorem signal_waiting {s : Sweeper ρ} (hloops : s.loops = [(s.starts, .waiting s.starts)]) :
    s.signal = s.lower.cancel s.starts := by
  simp [signal, lower, cancel, hloops]

/-- The signal leaves a loop that sweeps. -/
theorem signal_sweeping {s : Sweeper ρ} {i : Nat} {rest : ρ}
    (hloops : s.loops = [(i, .sweeping rest)]) : s.signal = s.lower := by
  simp [signal, lower, hloops]

end ExpiringStore.Sweeper

namespace ExpiringStore.Rehearsal

open Sweeper

theorem startSweeper_course (w : World) (s : Sweeper Sweep) :
    Course ⟨s, .free⟩ [.start] ⟨(startSweeper w s).1, .free⟩ := by
  have hstart : (startSweeper w s).1 = s.start := by
    unfold startSweeper Sweeper.start
    split <;> rfl
  rw [hstart]
  exact .cons (.start s) (.nil _)

/-- The loop heeds the signal or is cancelled, unless its sweep ends before. -/
theorem stopSweeper_running (run : Runner) (w : World) (store : String) {s : Sweeper Sweep}
    {l : Loop Sweep} (up : s.running = true) (own : s.own = some s.starts)
    (hloops : s.loops = [(s.starts, l)])
    (heeds : ∀ signal, l = .waiting signal → signal = s.starts) :
    (stopSweeper run w store s).1 = s.lower.cancel s.starts ∨
      ∃ rest completed, l = .sweeping rest ∧
        (stopSweeper run w store s).1 = s.lower.finish s.starts completed := by
  have hbusy : ¬ s.isIdle = true := by simp [isIdle, up]
  have halive : s.ownLoop? = some (s.starts, l) :=
    ownLoop?_eq_some.2 ⟨own, by simp [Sweeper.loop?, hloops]⟩
  unfold stopSweeper
  rw [if_neg hbusy, halive]
  dsimp only
  cases l with
  | waiting n =>
    obtain rfl := heeds n rfl
    have hsignal := signal_waiting hloops
    split
    · refine .inl ?_
      show s.signal.cancel s.starts = _
      rw [hsignal]
      simp [cancel]
    · exact .inl hsignal
  | sweeping rest =>
    obtain ⟨rest, delay⟩ := rest
    rw [signal_sweeping hloops]
    have hends (r : Except Failure Nat) (w : World) : ∃ completed,
        (endSweep w s.lower s.starts r).1 = s.lower.finish s.starts completed := by
      cases r with
      | ok n => exact ⟨true, rfl⟩
      | error f => exact ⟨false, rfl⟩
    split
    · exact .inl rfl
    · cases delay with
      | none =>
        obtain ⟨completed, h⟩ := hends _ _
        exact .inr ⟨_, completed, rfl, h⟩
      | some why =>
        cases why with
        | hanging => exact .inl rfl
        | slowness =>
          obtain ⟨completed, h⟩ := hends _ _
          exact .inr ⟨_, completed, rfl, h⟩

/-- A stop is a course that returns. -/
theorem stopSweeper_course (run : Runner) (w : World) (store : String) {s : Sweeper Sweep}
    (h : Poised ⟨s, .free⟩) :
    ∃ ms, Course ⟨s, .free⟩ (.stop :: ms) ⟨(stopSweeper run w store s).1, .free⟩ ∧
      Scene.AtRest ⟨(stopSweeper run w store s).1, .free⟩ := by
  cases h with
  | idle down own loops =>
    have hidle : s.isIdle = true := by simp [isIdle, down, own]
    have hstop : (stopSweeper run w store s).1 = s := congrArg Prod.fst (if_pos hidle)
    rw [hstop]
    exact ⟨[], .cons (.idle hidle) (.nil _), rfl, down, loops⟩
  | running up own busy =>
    obtain ⟨l, hloops, heeds⟩ := busy
    have hloop : s.lower.loop? s.starts = some l := by simp [Sweeper.loop?, lower, hloops]
    have hstop : Step ⟨s, .free⟩ .stop ⟨s.lower, .stopping s.starts⟩ :=
      .stop (by simp [isIdle, up]) (ownLoop?_eq_some.2 ⟨own, hloop⟩)
    have hreturns {m : Sweeper.Move Sweep} {s' : Sweeper Sweep}
        (step : Step ⟨s.lower, .stopping s.starts⟩ m ⟨s', .stopping s.starts⟩)
        (ended : s'.loops = []) : ∃ ms, Course ⟨s, .free⟩ (.stop :: ms) ⟨s', .free⟩ ∧
          Scene.AtRest ⟨s', .free⟩ := by
      have hleave : Step ⟨s', .stopping s.starts⟩ .leave ⟨s', .free⟩ := .leave (loop?_nil ended)
      have hpoised := ((Poised.running up own ⟨l, hloops, heeds⟩).step hstop).step step
      exact ⟨[m, .leave], .cons hstop (.cons step (.cons hleave (.nil _))),
        hpoised.returned hleave (.inl rfl)⟩
    have hended : (s.lower.cancel s.starts).loops = [] := cancel_loops (s := s.lower) hloops
    rcases stopSweeper_running run w store up own hloops heeds with h | ⟨rest, completed, rfl, h⟩
    · rw [h]
      exact hreturns (.cancel (by rw [hloop]; rfl)) hended
    · rw [h]
      refine hreturns (.finish _ completed hloop) ?_
      obtain ⟨hrunning, -, -, hcount⟩ := count_same s.lower completed
      rw [finish_sweeping hloop, if_neg (by rw [hrunning]; exact Bool.false_ne_true)]
      exact cancel_loops (hcount.trans hloops)

/-- When an interval passes, the sweep that begins ends at once or stays under way. -/
theorem tick_course (w : World) (store : String) {s : Sweeper Sweep} (h : Poised ⟨s, .free⟩) :
    ∃ ms, Course ⟨s, .free⟩ ms ⟨(tick w store s).2.1, .free⟩ ∧ .start ∉ ms := by
  unfold tick
  split
  · next i signal st halive _ =>
    have hwaits := (ownLoop?_eq_some.1 halive).2
    have hexpire (sweep : Sweep) :
        Step ⟨s, .free⟩ (.expire i sweep) ⟨s.expire i sweep, .free⟩ := .expire .free sweep hwaits
    obtain ⟨rfl, hloops⟩ := h.loop? hwaits
    have hset (sweep : Sweep) : s.expire s.starts sweep = s.setLoop s.starts (.sweeping sweep) := by
      simp only [expire, hwaits]
    have hsweeps (sweep : Sweep) :
        (s.expire s.starts sweep).loop? s.starts = some (.sweeping sweep) := by
      rw [hset, Sweeper.loop?, setLoop_loops hloops]
      exact List.lookup_cons_self
    dsimp only
    split
    · next r w' _ =>
      cases r with
      | ok n =>
        exact ⟨[.expire s.starts _, .finish s.starts true],
          .cons (hexpire _) (.cons (.finish .free true (hsweeps _)) (.nil _)), by simp⟩
      | error f =>
        exact ⟨[.expire s.starts _, .finish s.starts false],
          .cons (hexpire _) (.cons (.finish .free false (hsweeps _)) (.nil _)), by simp⟩
    · next why rest w' _ =>
      -- What is left of the sweep takes the place of the sweep that began.
      have hheld : (s.expire s.starts ⟨Operation.cleanupExpired (w.config st), none⟩).setLoop
          s.starts (.sweeping ⟨.mk rest, some why⟩) = s.expire s.starts ⟨.mk rest, some why⟩ := by
        rw [hset, hset]
        simp [setLoop, hloops]
      refine ⟨[.expire s.starts ⟨.mk rest, some why⟩], ?_, by simp⟩
      show Course _ _ ⟨Sweeper.setLoop _ _ _, _⟩
      rw [hheld]
      exact .cons (hexpire _) (.nil _)
  · exact ⟨[], .nil _, List.not_mem_nil⟩
  · exact ⟨[], .nil _, List.not_mem_nil⟩

end ExpiringStore.Rehearsal
