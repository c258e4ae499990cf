import ExpiringStore.Proofs.Gate.Record
import Mathlib.Data.List.Perm.Subperm

/-!
# How callers at a gate get on

One caller is the next to begin a run, if it has the lock already or is the first to be given it,
and it stays so until it begins.  After a success nobody begins one.  Somebody can go on until all
have ended, and every turn brings some caller nearer to its end, so that there are not many.

    next x j, Turn x x'     →   next x' j, or j has begun a run               (Next.turn)
    a success in x          →   nothing more happens of runs                  (Plays.settled)
    plays n turns           →   n ≤ 9 · the number of callers                 (Plays.turns_le)
-/

namespace ExpiringStore

variable {ε : Type}

namespace Chart

variable {x x' : Chart ε} {i j : Nat} {r : Except ε Unit} {p q : Spot ε}

/-- A caller is the next to begin a run: it is first in the queue, and the lock is free or about to
be given back after a failure, or it has the lock already. -/
inductive Next (x : Chart ε) (j : Nat) : Prop
  | queued (shut : x.gate.isOpen = false) (first : x.queue.head? = some j)
      (free : ∀ i p, x.At i p → p.hasLock = true → ∃ e, p = .leaving (.error e))
  | inside (shut : x.gate.isOpen = false) (spot : x.At j .checking ∨ x.At j .ready)

theorem Next.not_gone (next : x.Next j) (orderly : x.Orderly) :
    ∃ p, x.At j p ∧ ∀ a, p ≠ .gone a := by
  cases next with
  | queued _ first => exact ⟨_, orderly.queued j (List.mem_of_head? first), nofun⟩
  | inside _ spot =>
    rcases spot with spot | spot
    · exact ⟨_, spot, nofun⟩
    · exact ⟨_, spot, nofun⟩

/-- One who gets to another spot without the lock changes nothing for the next. -/
theorem Next.put (next : x.Next j) (hp : x.At i p) (away : p ≠ .checking) (away' : p ≠ .ready)
    (idle : q.hasLock = false) {gate : Gatehouse} (same : gate.isOpen = x.gate.isOpen) :
    Next ⟨gate, x.queue, x.spots.set i q, x.history⟩ j := by
  cases next with
  | queued shut first free =>
    refine .queued (same.trans shut) first fun k p' spot lock => ?_
    rcases getElem?_set_cases spot with ⟨rfl, rfl⟩ | ⟨-, hother⟩
    · cases idle.symm.trans lock
    · exact free k p' hother lock
  | inside shut spot =>
    have hne : j ≠ i := by
      rintro rfl
      rcases spot with spot | spot
      · exact away (hp.unique spot)
      · exact away' (hp.unique spot)
    exact .inside (same.trans shut) (spot.imp (at_set_ne hne q).trans (at_set_ne hne q).trans)

/-- Whoever is next stays next until it begins a run. -/
theorem Next.turn (next : x.Next j) (orderly : x.Orderly) (turn : x.Turn i r x') :
    (x'.Next j ∧ x'.history = x.history) ∨ x'.history = x.history ++ [.began j] := by
  have shut : x.gate.isOpen = false := by cases next <;> assumption
  -- One with the lock who is not going after a failure is the one who is next.
  have own {p : Spot ε} (spot : x.At i p) (lock : p.hasLock = true)
      (stays : ∀ e, p ≠ .leaving (.error e)) : i = j ∧ (x.At j .checking ∨ x.At j .ready) := by
    cases next with
    | queued _ _ free =>
      obtain ⟨e, he⟩ := free i p spot lock
      exact absurd he (stays e)
    | inside _ inside =>
      refine ⟨?_, inside⟩
      rcases inside with hj | hj
      · exact orderly.alone spot lock hj rfl
      · exact orderly.alone spot lock hj rfl
  cases turn with
  | passes spot isOpen => cases shut.symm.trans isOpen
  | asks spot => exact .inl ⟨next.put spot nofun nofun rfl rfl, rfl⟩
  | locks spot free first =>
    refine .inl ⟨?_, rfl⟩
    cases next with
    | queued _ hfirst =>
      obtain rfl := first j hfirst
      exact .inside shut (.inl (at_set_self spot _))
    | inside _ inside =>
      have hheld : x.gate.holder = some j :=
        (orderly.holder j).2 (inside.elim (⟨_, ·, rfl⟩) (⟨_, ·, rfl⟩))
      cases free.symm.trans hheld
  | waits =>
    refine .inl ⟨?_, rfl⟩
    cases next with
    | queued _ hfirst free =>
      refine .queued shut ?_ free
      show (x.queue ++ [i]).head? = some j
      rw [List.head?_append, hfirst]
      rfl
    | inside _ inside => exact .inside shut inside
  | yields spot isOpen => cases shut.symm.trans isOpen
  | prepares spot =>
    obtain ⟨rfl, -⟩ := own spot rfl nofun
    exact .inl ⟨.inside shut (.inr (at_set_self spot _)), rfl⟩
  | begins spot =>
    obtain ⟨rfl, -⟩ := own spot rfl nofun
    exact .inr rfl
  | succeeds spot | fails spot | opens spot =>
    obtain ⟨rfl, spot' | spot'⟩ := own spot rfl nofun <;> cases spot.unique spot'
  | leaves spot =>
    exact .inl ⟨next.put spot nofun nofun rfl rfl, rfl⟩

theorem Turn.history (turn : x.Turn i r x') : x.history <+: x'.history := by
  cases turn with
  | begins | succeeds | fails => exact List.prefix_append _ _
  | _ => exact List.prefix_rfl

theorem Plays.history {moves : List (GateMove ε)} (plays : Plays moves x x') :
    x.history <+: x'.history := by
  induction plays with
  | nil => exact List.prefix_rfl
  | cons hmoves _ ih =>
    refine List.IsPrefix.trans ?_ ih
    cases hmoves with
    | arrive => exact List.prefix_rfl
    | turn turn => exact turn.history

theorem Next.arrive (next : x.Next j) : Next { x with spots := x.spots ++ [.arriving] } j := by
  cases next with
  | queued shut first free =>
    refine .queued shut first fun k p spot lock => ?_
    rcases getElem?_append_cases spot with hspot | ⟨-, rfl⟩
    · exact free k p hspot lock
    · cases lock
  | inside shut spot => exact .inside shut (spot.imp (at_append · _) (at_append · _))

/-- Whatever is played, whoever is next is still next, or has begun the next run. -/
theorem Next.plays {moves : List (GateMove ε)} (next : x.Next j) (sound : x.Sound)
    (plays : Plays moves x x') :
    (x'.Next j ∧ x'.history = x.history) ∨ x.history ++ [.began j] <+: x'.history := by
  induction plays with
  | nil => exact .inl ⟨next, rfl⟩
  | @cons m rest x x₁ x' hmoves hrest ih =>
    have hstep : (x₁.Next j ∧ x₁.history = x.history) ∨ x₁.history = x.history ++ [.began j] := by
      cases hmoves with
      | arrive => exact .inl ⟨next.arrive, rfl⟩
      | turn turn => exact next.turn sound.orderly turn
    rcases hstep with ⟨hnext, hsame⟩ | hbegan
    · rw [← hsame]
      exact ih hnext (sound.moves hmoves)
    · rw [← hbegan]
      exact .inr hrest.history

/-- Whoever fails leaves the gate shut, and the first who waits is next. -/
theorem Turn.next_of_fails {e : ε} (sound : x.Sound) (turn : x.Turn i (.error e) x')
    (ends : x'.history = x.history ++ [.ended i (.error e)]) :
    x'.gate.isOpen = false ∧ ∀ j, x'.queue.head? = some j → x'.Next j := by
  cases turn with
  | fails spot =>
    obtain ⟨failed, current, hrec⟩ := sound.recorded
    have shut : x.gate.isOpen = false := by
      obtain rfl := hrec.fits i _ spot
      by_contra hopen
      obtain ⟨j, hj⟩ := hrec.opened (Bool.eq_true_of_not_eq_false hopen)
      cases hj
    refine ⟨shut, fun j first => .queued shut first fun k p hspot lock => ?_⟩
    rcases getElem?_set_cases hspot with ⟨rfl, rfl⟩ | ⟨hk, hother⟩
    · exact ⟨e, rfl⟩
    · exact absurd (sound.orderly.alone hother lock spot rfl) hk
  | begins => simp at ends
  | _ => exact absurd ends (by simp [put])

/-! ## After a success -/

theorem Recorded.succeeded {failed : List (Nat × ε)} {current : CurrentRun}
    (h : x.Recorded failed current) (success : .ended j (.ok ()) ∈ x.history) :
    current = .succeeded j := by
  rw [h.history, runHistory] at success
  cases current with
  | nobody | running => simp [CurrentRun.events] at success
  | succeeded k => simpa [CurrentRun.events, eq_comm] using success

/-- After a success nothing more happens of runs. -/
theorem Turn.settled (sound : x.Sound) (turn : x.Turn i r x')
    (success : .ended j (.ok ()) ∈ x.history) : x'.history = x.history := by
  obtain ⟨failed, current, hrec⟩ := sound.recorded
  obtain rfl := hrec.succeeded success
  cases turn with
  | begins spot => cases (hrec.fits i _ spot).2
  | succeeds spot | fails spot => cases hrec.fits i _ spot
  | _ => rfl

theorem Plays.settled {moves : List (GateMove ε)} (sound : x.Sound) (plays : Plays moves x x')
    (success : .ended j (.ok ()) ∈ x.history) : x'.history = x.history := by
  induction plays with
  | nil => rfl
  | @cons m rest x x₁ x' hmoves _ ih =>
    have hstep : x₁.history = x.history := by
      cases hmoves with
      | arrive => rfl
      | turn turn => exact turn.settled sound success
    exact (ih (sound.moves hmoves) (hstep ▸ success)).trans hstep

/-! ## The end -/

end Chart

/-- More than is left to do for one at a spot; to wait for the lock counts as one thing to do. -/
def Spot.toGo : Spot ε → Nat
  | .arriving => 8
  | .asking => 7
  | .checking => 5
  | .ready => 4
  | .running => 3
  | .opening => 2
  | .leaving _ => 1
  | .gone _ => 0

theorem Spot.toGo_le (p : Spot ε) : p.toGo ≤ 8 := by cases p <;> simp [toGo]

/-- What is left to do for all who are somewhere. -/
def Spot.allToGo : List (Spot ε) → Nat
  | [] => 0
  | p :: rest => p.toGo + allToGo rest

/-- One who goes on from its spot leaves the others what they have to do. -/
theorem Spot.allToGo_set {spots : List (Spot ε)} {i : Nat} {p q : Spot ε}
    (hp : spots[i]? = some p) :
    Spot.allToGo (spots.set i q) + p.toGo = Spot.allToGo spots + q.toGo := by
  induction spots generalizing i with
  | nil => cases hp
  | cons o rest ih =>
    cases i with
    | zero =>
      obtain rfl := Option.some.inj hp
      rw [List.set_cons_zero, allToGo, allToGo]
      omega
    | succ i =>
      have hrest := ih (i := i) hp
      rw [List.set_cons_succ, allToGo, allToGo]
      omega

theorem Spot.allToGo_le (spots : List (Spot ε)) : Spot.allToGo spots ≤ 8 * spots.length := by
  induction spots with
  | nil => exact Nat.le_refl 0
  | cons p rest ih =>
    have hp := p.toGo_le
    rw [allToGo, List.length_cons]
    omega

namespace Chart

variable {x x' : Chart ε} {i : Nat} {r : Except ε Unit}

/-- What is left to do for all callers, where those in the queue have one thing less. -/
def toGo (x : Chart ε) : Int := (Spot.allToGo x.spots : Int) - (x.queue.length : Int)

/-- Every turn leaves less to do. -/
theorem Turn.toGo_lt (turn : x.Turn i r x') :
    x'.toGo < x.toGo ∧ x'.spots.length = x.spots.length := by
  have less {p q : Spot ε} (hp : x.At i p) {queue : List Nat} {gate : Gatehouse}
      {history : List (RunEvent ε)} (lt : q.toGo + x.queue.length < p.toGo + queue.length) :
      toGo ⟨gate, queue, x.spots.set i q, history⟩ < x.toGo ∧
        (x.spots.set i q).length = x.spots.length := by
    have hset := Spot.allToGo_set (q := q) hp
    refine ⟨?_, List.length_set⟩
    unfold toGo
    dsimp only
    omega
  have stays {p q : Spot ε} (hp : x.At i p) (lt : q.toGo < p.toGo) {gate : Gatehouse}
      {history : List (RunEvent ε)} :
      toGo ⟨gate, x.queue, x.spots.set i q, history⟩ < x.toGo ∧
        (x.spots.set i q).length = x.spots.length := less hp (Nat.add_lt_add_right lt _)
  cases turn with
  | locks spot =>
    refine less (q := .checking) spot ?_
    show 5 + x.queue.length < 7 + x.queue.tail.length
    rw [List.length_tail]
    omega
  | waits spot =>
    refine ⟨?_, rfl⟩
    unfold toGo
    rw [List.length_append]
    simp
  | passes spot => exact stays (q := .gone (.ok ())) spot (by simp [Spot.toGo])
  | asks spot => exact stays (q := .asking) spot (by simp [Spot.toGo])
  | yields spot => exact stays (q := .leaving (.ok ())) spot (by simp [Spot.toGo])
  | prepares spot => exact stays (q := .ready) spot (by simp [Spot.toGo])
  | begins spot => exact stays (q := .running) spot (by simp [Spot.toGo])
  | succeeds spot => exact stays (q := .opening) spot (by simp [Spot.toGo])
  | @fails e spot => exact stays (q := .leaving (.error e)) spot (by simp [Spot.toGo])
  | opens spot => exact stays (q := .leaving (.ok ())) spot (by simp [Spot.toGo])
  | @leaves _ a spot => exact stays (q := .gone a) spot (by simp [Spot.toGo])

theorem Orderly.length_queue_le (h : x.Orderly) : x.queue.length ≤ x.spots.length := by
  have hsub : x.queue ⊆ List.range x.spots.length :=
    fun i waits => List.mem_range.2 (h.queued i waits).lt
  simpa using (List.subperm_of_subset h.distinct hsub).length_le

/-- Turns that are taken while nobody arrives leave less to do, each of them. -/
theorem Plays.toGo_le {turns : List (Nat × Except ε Unit)}
    (plays : Plays (turns.map fun t => GateMove.turn t.1 t.2) x x') :
    x'.toGo + turns.length ≤ x.toGo ∧ x'.spots.length = x.spots.length := by
  induction turns generalizing x with
  | nil =>
    cases plays
    exact ⟨by simp, rfl⟩
  | cons t rest ih =>
    cases plays with
    | cons hmoves hrest =>
      cases hmoves with
      | turn turn =>
        obtain ⟨hlt, hlength⟩ := turn.toGo_lt
        obtain ⟨hle, hlength'⟩ := ih hrest
        refine ⟨?_, hlength'.trans hlength⟩
        rw [List.length_cons]
        omega

/-- There are no more than nine turns for each caller while nobody arrives. -/
theorem Plays.turns_le (sound : x.Sound) {turns : List (Nat × Except ε Unit)}
    (plays : Plays (turns.map fun t => GateMove.turn t.1 t.2) x x') :
    turns.length ≤ 9 * x.spots.length := by
  obtain ⟨hle, hlength⟩ := plays.toGo_le
  have hqueue := (sound.plays plays).orderly.length_queue_le
  have hall := Spot.allToGo_le x.spots
  unfold toGo at hle
  omega

end Chart

end ExpiringStore
