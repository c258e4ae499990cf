import ExpiringStore.Proofs.Ledger.Runs
import ExpiringStore.Proofs.Call.Storable

/-!
# Runs in which nothing fails

Where the storage does what it can, a run is smooth if its lifetimes fit a word and its patterns are
not too long: whether a step fails can be told from the script alone.

    Willing w   →   all calls of script are storable   →   smooth w c script s
-/

namespace ExpiringStore

variable {τ σ : Type} [ExactInstant τ]

/-- Surroundings in which nothing fails that need not: a transaction that can commit does. -/
structure Surroundings.Willing (w : Surroundings τ σ) : Prop where
  reads (s : σ) : ∃ now, (w.handle .readClock s).1 = .ok now
  commits (a : Transaction τ) (s : σ) (r : a.Reply) (t : Table τ)
    (h : a.commit (w.table s) = .ok (r, t)) : ∃ r', (w.handle (.attempt a) s).1 = .ok r'
  succeeds (step : EngineStep) (s : σ) : step.succeeded (w.handle (.engine step) s).1 = true

namespace Surroundings

variable {w : Surroundings τ σ}

/-- A program that makes storable transactions only has a smooth past, and leaves a table that can
be read. -/
theorem Willing.smooth_run {α : Type} (hw : w.Willing)
    {permits : List (Deed τ) → Transaction τ → Prop} {ends : Past τ → α → Prop}
    (hstorable : ∀ deeds a, permits deeds a → a.isStorable = true) {x : Program τ α} {p : Past τ}
    (h : x.Follows permits ends p) {s : σ} (hread : (w.table s).IsReadable)
    (hp : p.smooth = true) : (x.pastAfter w.handle s p).smooth = true ∧
      (w.table (x.run w.handle s).2).IsReadable := by
  induction x generalizing p s with
  | done a => exact ⟨hp, hread⟩
  | ask e next ih =>
    have hkeep : (∀ a, e ≠ .attempt a) → (p.after e (w.handle e s).1).smooth = true →
        (p.after e (w.handle e s).1).smooth = true ∧ (w.table (w.handle e s).2).IsReadable :=
      fun hne hsmooth => ⟨hsmooth, (w.untouched e s hne).symm ▸ hread⟩
    have hnext : (p.after e (w.handle e s).1).smooth = true ∧
        (w.table (w.handle e s).2).IsReadable := by
      cases e with
      | readClock =>
        obtain ⟨now, hr⟩ := hw.reads s
        refine hkeep (fun a h => nomatch h) ?_
        rw [hr]
        exact hp
      | attempt a =>
        have ha : a.isStorable = true := hstorable p.deeds a h.1
        obtain ⟨r, t, hdone⟩ := Transaction.commit_total ha hread
        obtain ⟨r', hr⟩ := hw.commits a s r t hdone
        have hdone' := w.committed a s r' hr
        rw [hr]
        exact ⟨hp,
          Transaction.isReadable_commit (Transaction.isLegible_of_isStorable ha) hread hdone'⟩
      | engine step =>
        refine hkeep (fun a h => nomatch h) ?_
        show (if step.succeeded _ then p else p.spoiled).smooth = true
        rw [if_pos (hw.succeeds step s)]
        exact hp
      | _ => exact hkeep (fun a h => nomatch h) hp
    exact ih _ (h.2 _) hnext.2 hnext.1

variable [Delay τ]

/-- In willing surroundings, a script of storable calls is smooth. -/
theorem Willing.smooth_of_storable (hw : w.Willing) (c : Config τ) {script : List (τ × Call)}
    (hscript : ∀ p ∈ script, p.2.isStorable c = true) {s : σ} (hread : (w.table s).IsReadable) :
    w.smooth c script s = true := by
  induction script generalizing s with
  | nil => rfl
  | cons p rest ih =>
    obtain ⟨now, call⟩ := p
    have hcall := hscript (now, call) List.mem_cons_self
    have hread' : (w.table (w.advance now s)).IsReadable := (w.table_advance now s).symm ▸ hread
    obtain ⟨hsmooth, hnext⟩ := hw.smooth_run (fun deeds a h => h.isStorable hcall)
      (Call.follows_program c call) hread' rfl
    exact Bool.and_eq_true_iff.2
      ⟨hsmooth, ih (fun q mem => hscript q (List.mem_cons_of_mem _ mem)) hnext⟩

omit [Delay τ] in
theorem willing_plain : (plain (τ := τ)).Willing where
  reads s := ⟨s.1, rfl⟩
  commits a s r t h := by
    have hr : (Effect.attempt a).answer s.1 s.2 = (.ok r, t) := Effect.answer_ok h
    exact ⟨r, congrArg Prod.fst hr⟩
  succeeds step s := by cases step <;> rfl

example : plain.smooth .plain day (0, Table.empty) = true :=
  willing_plain.smooth_of_storable .plain (by decide +kernel) Table.isReadable_empty

end Surroundings

end ExpiringStore
