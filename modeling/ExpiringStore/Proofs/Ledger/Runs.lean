import ExpiringStore.Proofs.Call.Writes
import ExpiringStore.Proofs.Interleaving.Play
import ExpiringStore.Proofs.Ledger.Answers

/-!
# Runs of one store

A store that has its table to itself carries out one call after another, each at its reading of the
clock.  If the table is empty at first, the clock does not go back and no step of the storage fails,
then the calls answer what the ledger tells, however long the run.

    results w c script s          what the calls of a script answer, from s on
    smooth w c script s           no step of the storage fails
    Tells c empty script …        the ledger tells these answers           (lifetimes_refine)
-/

namespace ExpiringStore.Surroundings

variable {τ σ : Type} [ExactInstant τ] [Delay τ] (w : Surroundings τ σ) (c : Config τ)

/-- The answer of a call at a reading of the clock, and what it leaves. -/
def answer (now : τ) (call : Call) (s : σ) : Except Failure Answer × σ :=
  (ExceptT.run (call.program c)).run w.handle (w.advance now s)

/-- What a call does at a reading of the clock. -/
def pastOf (now : τ) (call : Call) (s : σ) : Past τ :=
  (ExceptT.run (call.program c)).pastAfter w.handle (w.advance now s) {}

/-- The answers of the calls of a script, which are carried out in turn. -/
def results : List (τ × Call) → σ → List (Except Failure Answer)
  | [], _ => []
  | (now, call) :: script, s =>
    (w.answer c now call s).1 :: results script (w.answer c now call s).2

/-- Does no step of the storage fail in a script? -/
def smooth : List (τ × Call) → σ → Bool
  | [], _ => true
  | (now, call) :: script, s =>
    (w.pastOf c now call s).smooth && smooth script (w.answer c now call s).2

/-- A call in which nothing fails ends as its call does, and leaves what its deeds lead to. -/
theorem answer_ends (now : τ) (call : Call) (s : σ)
    (hsmooth : (w.pastOf c now call s).smooth = true) :
    ∃ deeds, call.Ends c deeds (w.answer c now call s).1 ∧
      Replays now deeds (w.table s) (w.table (w.answer c now call s).2) := by
  have hends := (Call.follows_program c call).run w.handle (w.advance now s)
  obtain ⟨deeds, hdeeds, hreplays⟩ :=
    w.replays (ExceptT.run (call.program c)) (w.advance now s) {}
  rw [w.clock_advance, w.table_advance] at hreplays
  replace hends := hends (.inl hsmooth)
  rw [hdeeds] at hends
  exact ⟨deeds, hends, hreplays⟩

/-- From a table that agrees with a ledger on, calls answer what the ledger tells.  The induction is
on the script; since the clock does not go back, the agreement lasts until the next call. -/
theorem tells_of_agrees {script : List (τ × Call)} {s : σ} {m : Ledger τ} {now : τ}
    (hagree : (w.table s).Agrees now m) (hlater : ∀ p ∈ script, now ≤ p.1)
    (hsorted : (script.map (·.1)).Pairwise (· ≤ ·)) (hsmooth : w.smooth c script s = true) :
    m.Tells c script (w.results c script s) := by
  induction script generalizing s m now with
  | nil => trivial
  | cons p rest ih =>
    obtain ⟨next, call⟩ := p
    obtain ⟨hfirst, hrest⟩ := Bool.and_eq_true_iff.1 hsmooth
    obtain ⟨hle, hsorted⟩ := List.pairwise_cons.1 hsorted
    obtain ⟨deeds, hends, hreplays⟩ := w.answer_ends c next call s hfirst
    have hnext : now ≤ next := hlater (next, call) List.mem_cons_self
    obtain ⟨hanswers, hagree'⟩ := hends.told (hagree.mono hnext) hreplays
    refine ⟨hanswers, ih hagree' ?_ hsorted hrest⟩
    intro q mem
    exact hle q.1 (List.mem_map_of_mem mem)

/-- The calls of one store on a table that is empty at first answer what the ledger tells. -/
theorem lifetimes_refine {script : List (τ × Call)} {s : σ} (hempty : w.table s = .empty)
    (hsorted : (script.map (·.1)).Pairwise (· ≤ ·)) (hsmooth : w.smooth c script s = true) :
    Ledger.empty.Tells c script (w.results c script s) := by
  cases script with
  | nil => trivial
  | cons p rest =>
    have hagree : (w.table s).Agrees p.1 Ledger.empty := hempty ▸ .empty p.1
    refine w.tells_of_agrees c hagree ?_ hsorted hsmooth
    intro q mem
    rcases List.mem_cons.1 mem with rfl | mem
    · exact le_rfl
    · exact (List.pairwise_cons.1 hsorted).1 q.1 (List.mem_map_of_mem mem)

/-- Surroundings that are a clock and a table and no more, where nothing fails that need not. -/
def plain : Surroundings τ (τ × Table τ) where
  handle e s := ((e.answer s.1 s.2).1, s.1, (e.answer s.1 s.2).2)
  table s := s.2
  clock s := s.1
  advance now s := (now, s.2)
  table_advance _ _ := rfl
  clock_advance _ _ := rfl
  clock_handle _ _ := rfl
  reading s now h := (Except.ok.inj h).symm
  committed a s r h := by
    cases hc : a.commit s.2 with
    | ok p =>
      rw [Effect.answer_ok hc] at h ⊢
      obtain rfl := Except.ok.inj h
      rfl
    | error f =>
      rw [Effect.answer_error hc] at h
      cases h
  failed a s f h := by
    cases hc : a.commit s.2 with
    | ok p =>
      rw [Effect.answer_ok hc] at h
      cases h
    | error f' =>
      rw [Effect.answer_error hc]
  untouched e s h := by
    cases e with
    | attempt a => exact absurd rfl (h a)
    | engine step => cases step <;> rfl
    | _ => rfl

/-- A day of a store: an absolute entry expires at 11 and a sliding one, looked up at 8, at 19. -/
def day : List (Int × Call) := [
  (0, .put (.str "a") (.str "one") (.int 10) Policy.absolute.toValue),
  (2, .put (.str "b") (.str "two") (.int 10) Policy.sliding.toValue),
  (8, .get (.str "b")),
  (11, .get (.str "a")),
  (12, .getAllKeys),
  (12, .putIfAbsent (.str "a") (.str "anew") .none Policy.absolute.toValue),
  (13, .getRemainingTtl (.str "a")),
  (19, .containsKey (.str "b")),
  (20, .cleanupExpired),
  (21, .getAll (.list [.str "a", .str "b"]))]

theorem lifetimes_refine_day :
    plain.smooth .plain day (0, Table.empty) = true ∧
      Ledger.empty.Tells .plain day (plain.results .plain day (0, Table.empty)) := by
  have hsmooth : plain.smooth .plain day (0, Table.empty) = true := by decide +kernel
  exact ⟨hsmooth, lifetimes_refine plain .plain rfl (by decide) hsmooth⟩

end ExpiringStore.Surroundings
