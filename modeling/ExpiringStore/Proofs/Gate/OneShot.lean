import ExpiringStore.Proofs.Gate.Handover
import Mathlib.Data.List.Nodup

/-!
# Gates that open once

However many callers visit a gate, and in whatever order they go on, one of them runs at a time what
sets up the rest, and none does after a run has succeeded.  A run that fails is taken by the caller
that began it, and the first of those who wait begins the next one.  Nobody is stuck, and every
visit ends after a few turns.

    every passage that is reached reports its runs, hands them on, and comes to an end    (one_shot)
-/

namespace ExpiringStore

variable {ε : Type}

/-! ## What is promised -/

def RunEvent.starter? : RunEvent ε → Option Nat
  | .began i => some i
  | .ended _ _ => none

namespace Passage

/-- Who has begun a run, in the order in which they did. -/
def starters (s : Passage ε) : List Nat := s.history.filterMap RunEvent.starter?

/-- What has come of the runs and of the callers: some runs have failed one after another, and after
them there is at most one more, which is in progress or has succeeded. -/
structure Reports (s : Passage ε) (failed : List (Nat × ε)) (current : CurrentRun) : Prop where
  history : s.history = runHistory failed current
  alone (i : Nat) (v : Visitor ε) (visits : s.visitors[i]? = some v) (runs : v.isRunning = true) :
    current = .running i
  /-- Nobody begins two runs. -/
  once : s.starters.Nodup
  /-- Nobody returns before a run has succeeded. -/
  returns (i : Nat) (ends : s.result? i = some (.ok ())) : ∃ j, current = .succeeded j
  /-- Whoever raises has begun a run that has failed so. -/
  raises (i : Nat) (e : ε) (ends : s.result? i = some (.error e)) : (i, e) ∈ failed
  /-- Whoever has begun a run that has failed is about to raise its failure, or has. -/
  raised (i : Nat) (e : ε) (fails : (i, e) ∈ failed) :
    i < s.visitors.length ∧ ∀ r, s.result? i = some r → r = .error e
  opened (isOpen : s.gate.isOpen = true) : ∃ j, current = .succeeded j
  /-- When all have ended, the last run was the first to succeed, or everybody's has failed. -/
  counts (finished : s.Finished) :
    (∃ j, current = .succeeded j ∧ s.starters.length = failed.length + 1) ∨
    (current = .nobody ∧ s.starters.length = s.visitors.length)
  /-- Someone can go on. -/
  live : s.Finished ∨ ∃ i, ∀ r, (s.turn i r).isSome = true

/-- Whatever is played next, a caller begins the next run, and has begun it when all have ended. -/
def HandsTo (s : Passage ε) (j : Nat) : Prop :=
  ∀ moves s', s.play moves = some s' →
    (s'.history = s.history ∨ s.history ++ [.began j] <+: s'.history) ∧
    (s'.Finished → s.history ++ [.began j] <+: s'.history)

end Passage

/-! ## What is kept of it -/

section
variable {failed : List (Nat × ε)} {current : CurrentRun}

/-- The starters of a history are those of its runs. -/
theorem filterMap_runHistory :
    (runHistory failed current).filterMap RunEvent.starter? = runStarters failed current := by
  unfold runHistory runStarters
  rw [List.filterMap_append, List.filterMap_flatMap]
  congr 1
  · induction failed with
    | nil => rfl
    | cons run rest ih => exact congrArg (run.1 :: ·) ih
  · cases current <;> rfl

end

theorem Visitor.result?_eq_some {v : Visitor ε} {r : Except ε Unit} :
    v.result? = some r ↔ v.rest = .done r := by
  unfold Visitor.result?
  cases v.rest <;> simp

namespace Spot

variable {p : Spot ε}

theorem rest_eq_done {r : Except ε Unit} : p.rest = .done r ↔ p = .gone r := by
  cases p <;> simp [rest, GateVisit.ensure_eq, GateVisit.asking, GateVisit.checking,
    GateVisit.opening, GateVisit.leaving]

theorem result?_visitor {r : Except ε Unit} : p.visitor.result? = some r ↔ p = .gone r :=
  Visitor.result?_eq_some.trans rest_eq_done

theorem isRunning_visitor (runs : p.visitor.isRunning = true) : p = .running := by
  cases p with
  | running => rfl
  | _ => cases runs

end Spot

namespace Chart

variable {x : Chart ε} {i : Nat} {r : Except ε Unit} {failed : List (Nat × ε)}
  {current : CurrentRun}

theorem result?_passage : x.passage.result? i = some r ↔ x.At i (.gone r) := by
  unfold Passage.result?
  rw [getElem?_visitors]
  show (x.spots[i]?.map Spot.visitor).bind _ = _ ↔ x.spots[i]? = _
  cases x.spots[i]? with
  | none => exact ⟨nofun, nofun⟩
  | some p => exact Spot.result?_visitor.trans ⟨congrArg some, Option.some.inj⟩

theorem finished_passage : x.passage.Finished ↔ ∀ i p, x.At i p → ∃ a, p = .gone a := by
  constructor
  · intro finished i p spot
    have hv : p.visitor ∈ x.passage.visitors :=
      List.mem_map_of_mem (List.mem_of_getElem? spot)
    obtain ⟨a, ha⟩ := Option.isSome_iff_exists.1 (finished _ hv)
    exact ⟨a, Spot.result?_visitor.1 ha⟩
  · intro h v hv
    obtain ⟨p, hp, rfl⟩ := List.mem_map.1 hv
    obtain ⟨i, spot⟩ := List.mem_iff_getElem?.1 hp
    obtain ⟨a, rfl⟩ := h i p spot
    rfl

theorem starters_passage (h : x.Recorded failed current) :
    x.passage.starters = runStarters failed current := by
  show x.history.filterMap _ = _
  rw [h.history, filterMap_runHistory]

/-! ### Nobody is stuck -/

/-- One who has not ended can go on, unless it waits for the lock. -/
theorem turn_isSome {p : Spot ε} (spot : x.At i p) (stays : ∀ a, p ≠ .gone a)
    (free : p = .asking → x.passage.mayLock i = true) (r : Except ε Unit) :
    (x.passage.turn i r).isSome = true := by
  have hv : x.passage.visitors[i]? = some p.visitor := by
    rw [getElem?_visitors, show x.spots[i]? = some p from spot]
    rfl
  unfold Passage.turn
  rw [hv, Option.bind_some]
  cases p with
  | arriving =>
    show (x.passage.goOn i r ⟨.ensure, false⟩).isSome = true
    rw [GateVisit.ensure_eq]
    rfl
  | asking =>
    show (if x.passage.mayLock i then _ else _ : Option (Passage ε)).isSome = true
    rw [free rfl]
    rfl
  | gone a => exact absurd rfl (stays a)
  | _ => rfl

/-- Unless all have ended somebody can go on: who has the lock, or the first who waits for it. -/
theorem Orderly.live (h : x.Orderly) :
    x.passage.Finished ∨ ∃ i, ∀ r, (x.passage.turn i r).isSome = true := by
  by_cases hbusy : ∃ i p, x.At i p ∧ (∀ a, p ≠ .gone a) ∧ p ≠ .asking
  · obtain ⟨i, p, spot, stays, hasks⟩ := hbusy
    exact .inr ⟨i, turn_isSome spot stays (absurd · hasks)⟩
  have hquiet {i : Nat} {p : Spot ε} (spot : x.At i p) (stays : ∀ a, p ≠ .gone a) :
      p = .asking := by
    by_contra hasks
    exact hbusy ⟨i, p, spot, stays, hasks⟩
  have hfree : x.gate.holder = none := by
    rw [Option.eq_none_iff_forall_not_mem]
    intro i held
    obtain ⟨p, spot, lock⟩ := (h.holder i).1 held
    have hasks := hquiet spot (by rintro a rfl; cases lock)
    rw [hasks] at lock
    cases lock
  by_cases hasks : ∃ i, x.At i .asking
  · -- The first in the queue can take the lock, or anyone if nobody has queued up.
    obtain ⟨i, spot⟩ := hasks
    cases hqueue : x.queue with
    | nil =>
      refine .inr ⟨i, turn_isSome spot nofun fun _ => mayLock_iff.2 ⟨hfree, ?_⟩⟩
      rw [hqueue]
      exact nofun
    | cons j rest =>
      have hj : x.At j .asking := h.queued j (by rw [hqueue]; exact List.mem_cons_self)
      refine .inr ⟨j, turn_isSome hj nofun fun _ => mayLock_iff.2 ⟨hfree, ?_⟩⟩
      rw [hqueue]
      exact fun k hk => (Option.some.inj hk).symm
  · refine .inl (finished_passage.2 fun i p spot => ?_)
    by_contra hstays
    have hspot := hquiet spot fun a ha => hstays ⟨a, ha⟩
    exact hasks ⟨i, hspot ▸ spot⟩

/-! ### How many runs there were -/

/-- When all have ended without a success, everybody has begun a run. -/
theorem Recorded.counts (h : x.Recorded failed current) (finished : x.passage.Finished) :
    (∃ j, current = .succeeded j ∧ x.passage.starters.length = failed.length + 1) ∨
      (current = .nobody ∧ x.passage.starters.length = x.passage.visitors.length) := by
  rw [finished_passage] at finished
  have hlength : x.passage.visitors.length = x.spots.length := List.length_map _
  rw [starters_passage h, hlength]
  cases current with
  | succeeded j => exact .inl ⟨j, rfl, by simp [runStarters, CurrentRun.starters]⟩
  | running j =>
    obtain ⟨a, ha⟩ := finished j _ (h.runs j rfl)
    cases ha
  | nobody =>
    refine .inr ⟨rfl, ?_⟩
    have hall (i : Nat) : i ∈ runStarters failed .nobody ↔ i ∈ List.range x.spots.length := by
      rw [List.mem_range]
      refine ⟨h.known i, fun hi => ?_⟩
      have hspot : x.At i x.spots[i] := List.getElem?_eq_getElem hi
      obtain ⟨a, ha⟩ := finished i _ hspot
      have hfits := h.fits i _ hspot
      rw [ha] at hfits
      rcases a with e | ⟨⟩
      · exact List.mem_append_left _ (List.mem_map_of_mem hfits)
      · obtain ⟨j, hj⟩ := h.opened hfits.1
        cases hj
    simpa using ((List.perm_ext_iff_of_nodup h.distinct List.nodup_range).2 hall).length_eq

/-- A sound chart shows all that is promised of its passage. -/
theorem Sound.reports (h : x.Sound) : ∃ failed current, x.passage.Reports failed current := by
  obtain ⟨failed, current, hrec⟩ := h.recorded
  have hstarters := starters_passage hrec
  refine ⟨failed, current, ?_⟩
  constructor
  case history => exact hrec.history
  case alone =>
    intro i v visits runs
    rw [getElem?_visitors] at visits
    obtain ⟨p, spot, rfl⟩ := Option.map_eq_some_iff.1 visits
    obtain rfl := Spot.isRunning_visitor runs
    exact hrec.fits i _ spot
  case once => exact hstarters ▸ hrec.distinct
  case returns => exact fun i ends => hrec.opened (hrec.fits i _ (result?_passage.1 ends)).1
  case raises => exact fun i e ends => hrec.fits i _ (result?_passage.1 ends)
  case raised =>
    intro i e fails
    have hmem : i ∈ runStarters failed current :=
      List.mem_append_left _ (List.mem_map_of_mem fails)
    refine ⟨(hrec.known i hmem).trans_eq (List.length_map _).symm, fun r ends => ?_⟩
    have hfits := hrec.fits i _ (result?_passage.1 ends)
    rcases r with e' | ⟨⟩
    · have hdistinct : (failed.map Prod.fst).Nodup := (List.nodup_append.1 hrec.distinct).1
      have hsame := List.inj_on_of_nodup_map hdistinct hfits fails rfl
      exact congrArg Except.error (Prod.mk.inj hsame).2
    · exact absurd fails (hfits.2 e)
  case opened => exact hrec.opened
  case counts => exact hrec.counts
  case live => exact h.orderly.live

/-- Whoever is next is handed the gate. -/
theorem Next.handsTo {j : Nat} (next : x.Next j) (sound : x.Sound) : x.passage.HandsTo j := by
  intro moves s' hplay
  obtain ⟨x', rfl, plays⟩ := play_cases hplay
  rcases next.plays sound plays with ⟨hnext, hsame⟩ | hbegan
  · refine ⟨.inl hsame, fun finished => ?_⟩
    obtain ⟨p, spot, stays⟩ := hnext.not_gone (sound.plays plays).orderly
    obtain ⟨a, ha⟩ := finished_passage.1 finished j p spot
    exact absurd ha (stays a)
  · exact ⟨.inr hbegan, fun _ => hbegan⟩

end Chart

namespace Passage

variable {s : Passage ε}

/-- Everything that is promised of a gate that is reached. -/
theorem one_shot (reached : s.Reachable) :
    (∃ failed current, s.Reports failed current) ∧
    (∀ j, .ended j (.ok ()) ∈ s.history → ∀ moves s', s.play moves = some s' →
      s'.history = s.history) ∧
    (∀ i e s', s.turn i (.error e) = some s' → s'.history = s.history ++ [.ended i (.error e)] →
      s'.gate.isOpen = false ∧ ∀ j, s'.queue.head? = some j → s'.HandsTo j) ∧
    ∀ (turns : List (Nat × Except ε Unit)) s',
      s.play (turns.map fun t => .turn t.1 t.2) = some s' →
      turns.length ≤ 9 * s.visitors.length := by
  obtain ⟨x, rfl, sound⟩ := reached.chart
  refine ⟨sound.reports, fun j success moves s' hplay => ?_, fun i e s' hturn ends => ?_,
    fun turns s' hplay => ?_⟩
  · obtain ⟨x', rfl, plays⟩ := Chart.play_cases hplay
    exact plays.settled sound success
  · obtain ⟨x', rfl, moves⟩ := Chart.move_cases (m := .turn i (.error e)) hturn
    have sound' := sound.moves moves
    cases moves with
    | turn turn =>
      obtain ⟨shut, hnext⟩ := turn.next_of_fails sound ends
      exact ⟨shut, fun j first => (hnext j first).handsTo sound'⟩
  · obtain ⟨x', rfl, plays⟩ := Chart.play_cases hplay
    exact (plays.turns_le sound).trans_eq (congrArg (9 * ·) (List.length_map _).symm)

/-- Three callers arrive, the first begins a run, and the others queue up. -/
def crowded : List (GateMove String) :=
  let next (i : Nat) : GateMove String := .turn i (.ok ())
  [.arrive, .arrive, .arrive, next 0, next 0, next 1, next 2, next 1, next 0, next 0, next 2]

/-- The run fails, and the gate stays shut and is handed to the second caller. -/
theorem one_shot_crowded : ∃ s s', play {} crowded = some s ∧
    s.turn 0 (.error "boom") = some s' ∧ s'.gate.isOpen = false ∧ s'.HandsTo 1 := by
  let s := (play {} crowded).getD {}
  let s' := (s.turn 0 (.error "boom")).getD {}
  have hs : play {} crowded = some s := rfl
  have hs' : s.turn 0 (.error "boom") = some s' := rfl
  obtain ⟨-, -, hfails, -⟩ := one_shot (s := s) ⟨crowded, hs⟩
  obtain ⟨shut, hands⟩ := hfails 0 "boom" s' hs' rfl
  exact ⟨s, s', hs, hs', shut, hands 1 rfl⟩

end Passage

end ExpiringStore
