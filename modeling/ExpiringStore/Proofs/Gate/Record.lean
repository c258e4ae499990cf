import ExpiringStore.Proofs.Gate.Passage

/-!
# What is true at a gate

Whoever is past the lock has it, and whoever waits for it asks for it.  So the runs behind a gate
follow one another: some have failed, and the last one may be in progress, or may have succeeded.
Where a caller is says what has come of its run.

    orderly x                     the lock and the queue are those of the callers' spots
    recorded x failed current     the history is that of failed runs and of the current one, and
                                  every caller's spot fits them
    both are kept by every turn   (Orderly.turn, Recorded.turn)
-/

namespace ExpiringStore

variable {ε : Type}

/-- The last run behind a gate, unless it has failed. -/
inductive CurrentRun where
  | nobody
  | running (i : Nat)
  | succeeded (i : Nat)
  deriving DecidableEq

namespace CurrentRun

/-- Who has begun it. -/
def starters : CurrentRun → List Nat
  | .nobody => []
  | .running i | .succeeded i => [i]

/-- What has happened of it. -/
def events : CurrentRun → List (RunEvent ε)
  | .nobody => []
  | .running i => [.began i]
  | .succeeded i => [.began i, .ended i (.ok ())]

end CurrentRun

/-- The history of runs that have failed one after another, and of the current one after them. -/
def runHistory (failed : List (Nat × ε)) (current : CurrentRun) : List (RunEvent ε) :=
  failed.flatMap (fun run => [.began run.1, .ended run.1 (.error run.2)]) ++ current.events

def runStarters (failed : List (Nat × ε)) (current : CurrentRun) : List Nat :=
  failed.map Prod.fst ++ current.starters

section
variable {failed : List (Nat × ε)} {i : Nat} {e : ε}

theorem runHistory_began :
    runHistory failed .nobody ++ [.began i] = runHistory failed (.running i) := by
  simp [runHistory, CurrentRun.events]

theorem runHistory_succeeded : runHistory failed (.running i) ++ [.ended i (.ok ())] =
    runHistory failed (.succeeded i) := by
  simp [runHistory, CurrentRun.events]

theorem runHistory_failed : runHistory failed (.running i) ++ [.ended i (.error e)] =
    runHistory (failed ++ [(i, e)]) .nobody := by
  simp [runHistory, CurrentRun.events]

theorem runStarters_failed :
    runStarters (failed ++ [(i, e)]) .nobody = runStarters failed (.running i) := by
  simp [runStarters, CurrentRun.starters]

end

/-! ## The lock -/

def Spot.hasLock : Spot ε → Bool
  | .checking | .ready | .running | .opening | .leaving _ => true
  | .arriving | .asking | .gone _ => false

namespace Chart

/-- The lock and the queue are those of the callers' spots. -/
structure Orderly (x : Chart ε) : Prop where
  holder (i : Nat) : x.gate.holder = some i ↔ ∃ p, x.At i p ∧ p.hasLock = true
  queued (i : Nat) (waits : i ∈ x.queue) : x.At i .asking
  distinct : x.queue.Nodup

variable {x x' : Chart ε} {i j : Nat} {r : Except ε Unit} {p q : Spot ε}

theorem At.unique (hp : x.At i p) (hq : x.At i q) : p = q := Option.some.inj (hp.symm.trans hq)

theorem At.lt (hp : x.At i p) : i < x.spots.length := (List.getElem?_eq_some_iff.1 hp).1

theorem Orderly.alone (h : x.Orderly) (hp : x.At i p) (lock : p.hasLock = true) (hq : x.At j q)
    (lock' : q.hasLock = true) : i = j :=
  Option.some.inj (((h.holder i).2 ⟨p, hp, lock⟩).symm.trans ((h.holder j).2 ⟨q, hq, lock'⟩))

theorem Orderly.not_queued (h : x.Orderly) (hp : x.At i p) (other : p ≠ .asking) : i ∉ x.queue :=
  fun waits => other (hp.unique (h.queued i waits))

theorem Orderly.holder_iff (h : x.Orderly) (hp : x.At i p) :
    x.gate.holder = some i ↔ p.hasLock = true := by
  rw [h.holder i]
  exact ⟨fun ⟨q, hq, lock⟩ => hp.unique hq ▸ lock, fun lock => ⟨p, hp, lock⟩⟩

theorem at_set_self {x : Chart ε} (hp : x.At i p) (q : Spot ε) :
    (x.spots.set i q)[i]? = some q := List.getElem?_set_self hp.lt

theorem at_set_ne {x : Chart ε} (hne : j ≠ i) (q : Spot ε) :
    (x.spots.set i q)[j]? = x.spots[j]? := List.getElem?_set_ne hne.symm

/-- Whoever goes on to another spot, and takes the lock or gives it back if that is what the spots
are for, and does not wait any more, leaves everything in order. -/
theorem Orderly.set (h : x.Orderly) (hp : x.At i p) {gate : Gatehouse} {queue : List Nat}
    {history : List (RunEvent ε)}
    (holder : gate.holder =
      if q.hasLock then some i else if p.hasLock then none else x.gate.holder)
    (free : q.hasLock = true → p.hasLock = true ∨ x.gate.holder = none)
    (waits : ∀ j ∈ queue, j ∈ x.queue ∧ j ≠ i) (distinct : queue.Nodup) :
    Orderly ⟨gate, queue, x.spots.set i q, history⟩ where
  holder j := by
    show gate.holder = some j ↔ ∃ p', (x.spots.set i q)[j]? = some p' ∧ p'.hasLock = true
    have hhas := h.holder_iff hp
    by_cases hj : j = i
    · subst hj
      have hlock : (∃ p', some q = some p' ∧ p'.hasLock = true) ↔ q.hasLock = true := by simp
      rw [at_set_self hp, hlock, holder]
      cases hq : q.hasLock <;> cases hp' : p.hasLock <;> simp_all
    · have hother : x.gate.holder = some j ↔ ∃ p', x.spots[j]? = some p' ∧ p'.hasLock = true :=
        h.holder j
      rw [at_set_ne hj, ← hother, holder]
      have hne : some i ≠ some j := fun heq => hj (Option.some.inj heq).symm
      cases hq : q.hasLock with
      | true =>
        refine iff_of_false hne ?_
        rcases free hq with lock | hnone
        · rw [hhas.2 lock]
          exact hne
        · rw [hnone]
          exact nofun
      | false =>
        cases hlock : p.hasLock with
        | true =>
          rw [hhas.2 hlock]
          exact iff_of_false nofun hne
        | false => exact Iff.rfl
  queued j hj := by
    obtain ⟨hbefore, hne⟩ := waits j hj
    exact (at_set_ne hne q).trans (h.queued j hbefore)
  distinct := distinct

theorem Orderly.turn (h : x.Orderly) (turn : x.Turn i r x') : x'.Orderly := by
  have stays {p q : Spot ε} (spot : x.At i p) (other : p ≠ .asking)
      (same : q.hasLock = p.hasLock) {gate : Gatehouse} {history : List (RunEvent ε)}
      (holder : gate.holder = x.gate.holder) :
      Orderly ⟨gate, x.queue, x.spots.set i q, history⟩ := by
    refine h.set spot ?_ (fun lock => .inl (same ▸ lock)) (fun j waits => ⟨waits, ?_⟩) h.distinct
    · rw [same, holder]
      cases hlock : p.hasLock with
      | true => exact (h.holder_iff spot).2 hlock
      | false => rfl
    · rintro rfl
      exact h.not_queued spot other waits
  cases turn with
  | passes spot | asks spot => refine stays spot nofun ?_ ?_ <;> rfl
  | locks spot free first =>
    have hrest : ∀ j ∈ x.queue.tail, j ∈ x.queue ∧ j ≠ i := by
      intro j hj
      have hdistinct := h.distinct
      revert hj first hdistinct
      cases x.queue with
      | nil => simp
      | cons k rest =>
        intro first hj hdistinct
        obtain rfl : k = i := first k rfl
        refine ⟨List.mem_cons_of_mem _ hj, ?_⟩
        rintro rfl
        exact (List.nodup_cons.1 hdistinct).1 hj
    exact h.set spot rfl (fun _ => .inr free) hrest (h.distinct.tail)
  | waits spot new others =>
    refine ⟨h.holder, fun j hj => ?_, ?_⟩
    · rcases List.mem_append.1 hj with hj | hj
      · exact h.queued j hj
      · obtain rfl := List.mem_singleton.1 hj
        exact spot
    · exact List.nodup_append.2 ⟨h.distinct, List.nodup_singleton i, by
        rintro a ha b hb rfl
        exact new (List.mem_singleton.1 hb ▸ ha)⟩
  | yields spot | prepares spot => refine stays spot nofun ?_ ?_ <;> rfl
  | begins spot | succeeds spot | fails spot | opens spot => refine stays spot nofun ?_ ?_ <;> rfl
  | leaves spot =>
    refine h.set spot rfl nofun (fun j waits => ⟨waits, ?_⟩) h.distinct
    rintro rfl
    exact h.not_queued spot nofun waits

end Chart

/-! ## The runs -/

/-- Does it fit what has come of the runs that a caller is at a spot? -/
def Spot.Fits (isOpen : Bool) (failed : List (Nat × ε)) (current : CurrentRun) (i : Nat) :
    Spot ε → Prop
  | .arriving | .asking | .checking => i ∉ runStarters failed current
  | .ready => i ∉ runStarters failed current ∧ current = .nobody
  | .running => current = .running i
  | .opening => current = .succeeded i
  | .leaving (.ok _) | .gone (.ok _) => isOpen = true ∧ ∀ e, (i, e) ∉ failed
  | .leaving (.error e) | .gone (.error e) => (i, e) ∈ failed

namespace Chart

variable {x x' : Chart ε} {i j : Nat} {r : Except ε Unit} {p q : Spot ε}
  {failed failed' : List (Nat × ε)} {current current' : CurrentRun}

/-- The history is that of failed runs and of the current one, and every caller's spot fits them. -/
structure Recorded (x : Chart ε) (failed : List (Nat × ε)) (current : CurrentRun) : Prop where
  history : x.history = runHistory failed current
  distinct : (runStarters failed current).Nodup
  known (i : Nat) (starts : i ∈ runStarters failed current) : i < x.spots.length
  fits (i : Nat) (p : Spot ε) (spot : x.At i p) : p.Fits x.gate.isOpen failed current i
  opened (isOpen : x.gate.isOpen = true) : ∃ i, current = .succeeded i
  runs (i : Nat) (running : current = .running i) : x.At i .running
  /-- Once a run has succeeded the gate is open, or about to be opened. -/
  opens (i : Nat) (succeeded : current = .succeeded i) : x.gate.isOpen = true ∨ x.At i .opening

theorem not_failed (h : i ∉ runStarters failed current) (e : ε) : (i, e) ∉ failed :=
  fun mem => h (List.mem_append_left _ (List.mem_map_of_mem mem))

/-- One who goes on to a spot that fits, with no run of its own to account for. -/
theorem Recorded.put (h : x.Recorded failed current) (hp : x.At i p)
    (fits : q.Fits x.gate.isOpen failed current i) (idle : p ≠ .running) (idle' : p ≠ .opening)
    {gate : Gatehouse} {queue : List Nat} (same : gate.isOpen = x.gate.isOpen) :
    Recorded ⟨gate, queue, x.spots.set i q, x.history⟩ failed current where
  history := h.history
  distinct := h.distinct
  known j starts := (List.length_set ..).symm ▸ h.known j starts
  fits j p' spot := by
    rw [same]
    rcases getElem?_set_cases spot with ⟨rfl, rfl⟩ | ⟨-, hother⟩
    · exact fits
    · exact h.fits j p' hother
  opened isOpen := h.opened (same.symm.trans isOpen)
  runs j running := by
    have hspot := h.runs j running
    refine (at_set_ne ?_ q).trans hspot
    rintro rfl
    exact idle (hp.unique hspot)
  opens j succeeded := by
    rcases h.opens j succeeded with isOpen | hspot
    · exact .inl (same.trans isOpen)
    · refine .inr ((at_set_ne ?_ q).trans hspot)
      rintro rfl
      exact idle' (hp.unique hspot)

/-- Where one is who does not have the lock fits what comes of the run of another one. -/
theorem fits_frame {isOpen isOpen' : Bool} (idle : q.hasLock = false)
    (fits : q.Fits isOpen failed current j) (isOpens : isOpen = true → isOpen' = true)
    (starters : j ∈ runStarters failed' current' → j ∈ runStarters failed current)
    (failures : ∀ e, (j, e) ∈ failed' ↔ (j, e) ∈ failed) : q.Fits isOpen' failed' current' j := by
  cases q with
  | arriving | asking => exact mt starters fits
  | gone a =>
    rcases a with e | ⟨⟩
    · exact (failures e).2 fits
    · exact ⟨isOpens fits.1, fun e mem => fits.2 e ((failures e).1 mem)⟩
  | _ => cases idle

/-- One who has the lock goes on, and with it what it has the lock for. -/
theorem Recorded.advance (h : x.Recorded failed current) (orderly : x.Orderly) (hp : x.At i p)
    (lock : p.hasLock = true) {gate : Gatehouse} {queue : List Nat} {history : List (RunEvent ε)}
    (told : history = runHistory failed' current')
    (starters : runStarters failed' current' = runStarters failed current ∨
      i ∉ runStarters failed current ∧
        runStarters failed' current' = runStarters failed current ++ [i])
    (failures : ∀ j ≠ i, ∀ e, (j, e) ∈ failed' ↔ (j, e) ∈ failed)
    (fits : q.Fits gate.isOpen failed' current' i)
    (isOpens : x.gate.isOpen = true → gate.isOpen = true)
    (opened : gate.isOpen = true → ∃ j, current' = .succeeded j)
    (runs : ∀ j, current' = .running j → j = i ∧ q = .running)
    (opens : ∀ j, current' = .succeeded j → gate.isOpen = true ∨ j = i ∧ q = .opening) :
    Recorded ⟨gate, queue, x.spots.set i q, history⟩ failed' current' where
  history := told
  distinct := by
    rcases starters with hsame | ⟨hnew, hmore⟩
    · rw [hsame]
      exact h.distinct
    · rw [hmore]
      refine List.nodup_append.2 ⟨h.distinct, List.nodup_singleton i, ?_⟩
      rintro a ha b hb rfl
      exact hnew (List.mem_singleton.1 hb ▸ ha)
  known j starts := by
    rw [List.length_set]
    rcases starters with hsame | ⟨-, hmore⟩
    · exact h.known j (hsame ▸ starts)
    · rw [hmore, List.mem_append, List.mem_singleton] at starts
      rcases starts with hj | rfl
      · exact h.known j hj
      · exact hp.lt
  fits j p' spot := by
    rcases getElem?_set_cases spot with ⟨rfl, rfl⟩ | ⟨hj, hother⟩
    · exact fits
    · have idle : p'.hasLock = false :=
        Bool.eq_false_iff.2 fun lock' => hj (orderly.alone hother lock' hp lock)
      refine fits_frame idle (h.fits j p' hother) isOpens (fun starts => ?_) (failures j hj)
      rcases starters with hsame | ⟨-, hmore⟩
      · exact hsame ▸ starts
      · rw [hmore, List.mem_append, List.mem_singleton] at starts
        exact starts.resolve_right hj
  opened := opened
  runs j running := by
    obtain ⟨rfl, rfl⟩ := runs j running
    exact at_set_self hp _
  opens j succeeded := by
    rcases opens j succeeded with isOpen | ⟨rfl, rfl⟩
    · exact .inl isOpen
    · exact .inr (at_set_self hp _)

/-- While the gate is shut nobody else runs, or has run, behind the back of one who has the lock. -/
theorem Recorded.nobody (h : x.Recorded failed current) (orderly : x.Orderly)
    (hp : x.At i .checking) (shut : x.gate.isOpen = false) : current = .nobody := by
  cases current with
  | nobody => rfl
  | running j =>
    have hspot := h.runs j rfl
    obtain rfl := orderly.alone hp rfl hspot rfl
    cases hp.unique hspot
  | succeeded j =>
    rcases h.opens j rfl with isOpen | hspot
    · cases shut.symm.trans isOpen
    · obtain rfl := orderly.alone hp rfl hspot rfl
      cases hp.unique hspot

theorem Recorded.turn (h : x.Recorded failed current) (orderly : x.Orderly)
    (turn : x.Turn i r x') : ∃ failed' current', x'.Recorded failed' current' := by
  have shut (unset : ∀ j, current ≠ .succeeded j) : x.gate.isOpen = false := by
    by_contra hopen
    obtain ⟨j, hj⟩ := h.opened (Bool.eq_true_of_not_eq_false hopen)
    exact unset j hj
  cases turn with
  | passes spot isOpen =>
    have hfits := not_failed (h.fits i _ spot)
    exact ⟨_, _, h.put (q := .gone (.ok ())) spot ⟨isOpen, hfits⟩ nofun nofun rfl⟩
  | asks spot =>
    have hfits := h.fits i _ spot
    exact ⟨_, _, h.put (q := .asking) spot hfits nofun nofun rfl⟩
  | locks spot =>
    have hfits := h.fits i _ spot
    exact ⟨_, _, h.put (q := .checking) spot hfits nofun nofun rfl⟩
  | waits spot =>
    exact ⟨_, _, h.history, h.distinct, h.known, h.fits, h.opened, h.runs, h.opens⟩
  | yields spot isOpen =>
    have hfits := not_failed (h.fits i _ spot)
    exact ⟨_, _, h.put (q := .leaving (.ok ())) spot ⟨isOpen, hfits⟩ nofun nofun rfl⟩
  | prepares spot shut =>
    have hfits := h.fits i _ spot
    exact ⟨_, _, h.put (q := .ready) spot ⟨hfits, h.nobody orderly spot shut⟩ nofun nofun rfl⟩
  | begins spot =>
    obtain ⟨hnew, rfl⟩ := h.fits i _ spot
    have hshut := shut nofun
    refine ⟨failed, .running i, h.advance (q := .running) orderly spot rfl ?_ (.inr ⟨hnew, ?_⟩)
      (fun _ _ _ => .rfl) rfl id (fun hopen => ?_) (fun j hj => ?_) nofun⟩
    · rw [h.history, runHistory_began]
    · simp [runStarters, CurrentRun.starters]
    · exact Bool.noConfusion (hshut.symm.trans hopen)
    · exact ⟨(CurrentRun.running.inj hj).symm, rfl⟩
  | succeeds spot =>
    obtain rfl := h.fits i _ spot
    refine ⟨failed, .succeeded i, h.advance (q := .opening) orderly spot rfl ?_ (.inl rfl)
      (fun _ _ _ => .rfl) rfl id (fun _ => ⟨i, rfl⟩) nofun (fun j hj => ?_)⟩
    · rw [h.history, runHistory_succeeded]
    · exact .inr ⟨(CurrentRun.succeeded.inj hj).symm, rfl⟩
  | @fails e spot =>
    obtain rfl := h.fits i _ spot
    have hshut := shut nofun
    refine ⟨failed ++ [(i, e)], .nobody, h.advance (q := .leaving (.error e)) orderly spot rfl ?_
      (.inl runStarters_failed) (fun j hj e' => ?_) ?_ id (fun hopen => ?_) nofun nofun⟩
    · rw [h.history, runHistory_failed]
    · simp [hj]
    · exact List.mem_append_right _ List.mem_cons_self
    · exact Bool.noConfusion (hshut.symm.trans hopen)
  | opens spot =>
    obtain rfl := h.fits i _ spot
    have hnew : ∀ e, (i, e) ∉ failed := by
      intro e mem
      have hdistinct := (List.nodup_append.1 h.distinct).2.2
      exact hdistinct i (List.mem_map_of_mem mem) i List.mem_cons_self rfl
    exact ⟨failed, .succeeded i, h.advance (q := .leaving (.ok ())) orderly spot rfl h.history
      (.inl rfl) (fun _ _ _ => .rfl) ⟨rfl, hnew⟩ (fun _ => rfl) (fun _ => ⟨i, rfl⟩) nofun
      (fun _ _ => .inl rfl)⟩
  | @leaves _ a spot =>
    refine ⟨_, _, h.put (q := .gone a) spot ?_ nofun nofun rfl⟩
    have hfits := h.fits i _ spot
    cases a <;> exact hfits

/-! ## Everything that is played -/

/-- What is true of every chart that is reached. -/
structure Sound (x : Chart ε) : Prop where
  orderly : x.Orderly
  recorded : ∃ failed current, x.Recorded failed current

theorem sound_empty : Sound ({} : Chart ε) where
  orderly := by
    refine ⟨fun i => ⟨nofun, ?_⟩, nofun, List.nodup_nil⟩
    rintro ⟨p, spot, -⟩
    exact absurd spot.lt (Nat.not_lt_zero i)
  recorded := by
    refine ⟨[], .nobody, rfl, List.nodup_nil, nofun, fun i p spot => ?_, nofun, nofun, nofun⟩
    exact absurd spot.lt (Nat.not_lt_zero i)

theorem at_append (hp : x.At i p) (q : Spot ε) : (x.spots ++ [q])[i]? = some p :=
  (List.getElem?_append_left hp.lt).trans hp

theorem Sound.arrive (h : x.Sound) : Sound { x with spots := x.spots ++ [.arriving] } where
  orderly := by
    refine ⟨fun i => ?_, fun i waits => at_append (h.orderly.queued i waits) _, h.orderly.distinct⟩
    rw [show ({ x with spots := x.spots ++ [.arriving] } : Chart ε).gate.holder = x.gate.holder
      from rfl, h.orderly.holder i]
    constructor
    · rintro ⟨p, spot, lock⟩
      exact ⟨p, at_append spot _, lock⟩
    · rintro ⟨p, spot, lock⟩
      rcases getElem?_append_cases spot with hspot | ⟨-, rfl⟩
      · exact ⟨p, hspot, lock⟩
      · cases lock
  recorded := by
    obtain ⟨failed, current, hrec⟩ := h.recorded
    refine ⟨failed, current, hrec.history, hrec.distinct, fun i starts => ?_, fun i p spot => ?_,
      hrec.opened, fun i running => at_append (hrec.runs i running) _, fun i succeeded => ?_⟩
    · show i < (x.spots ++ [Spot.arriving]).length
      rw [List.length_append]
      exact Nat.lt_add_right _ (hrec.known i starts)
    · rcases getElem?_append_cases spot with hspot | ⟨rfl, rfl⟩
      · exact hrec.fits i p hspot
      · exact fun starts => absurd (hrec.known _ starts) (Nat.lt_irrefl _)
    · exact (hrec.opens i succeeded).imp_right fun hspot => at_append hspot _

theorem Sound.moves {m : GateMove ε} (h : x.Sound) (moves : x.Moves m x') : x'.Sound := by
  cases moves with
  | arrive => exact h.arrive
  | turn turn =>
    obtain ⟨failed, current, hrec⟩ := h.recorded
    exact ⟨h.orderly.turn turn, hrec.turn h.orderly turn⟩

theorem Sound.plays {moves : List (GateMove ε)} (h : x.Sound) (plays : Plays moves x x') :
    x'.Sound := by
  induction plays with
  | nil => exact h
  | cons hmoves _ ih => exact ih (h.moves hmoves)

end Chart

/-- Every passage that is reached has a chart, and that is sound. -/
theorem Passage.Reachable.chart {s : Passage ε} (reached : s.Reachable) :
    ∃ x : Chart ε, s = x.passage ∧ x.Sound := by
  obtain ⟨moves, hplay⟩ := reached
  obtain ⟨x, hs, hplays⟩ := Chart.play_cases (x := {}) hplay
  exact ⟨x, hs, Chart.sound_empty.plays hplays⟩

end ExpiringStore
