import ExpiringStore.Proofs.Program.Follows
import ExpiringStore.Proofs.Table.Commit

/-!
# Programs that run alone

A program that is carried out alone, at one reading of the clock, does to the table what it has
committed, in the order in which it has.  Its surroundings may answer everything else as they like,
and a transaction may fail, as long as it leaves nothing behind.

    x follows a rule     →   where x ends, the rule is kept                  (Follows.run)
    x is carried out     →   the table is what the deeds of x make of it     (Surroundings.replays)
-/

namespace ExpiringStore

variable {τ σ α : Type}

/-- What has been done when a program is carried out. -/
def Program.pastAfter (handle : (e : Effect τ) → σ → e.Reply × σ) :
    Program τ α → σ → Past τ → Past τ
  | .done _, _, p => p
  | .ask e next, s, p =>
    let (r, s) := handle e s
    (next r).pastAfter handle s (p.after e r)

/-- A program that follows a rule ends as it is to, whatever its surroundings. -/
theorem Program.Follows.run {permits : List (Deed τ) → Transaction τ → Prop}
    {ends : Past τ → α → Prop} {x : Program τ α} {p : Past τ} (h : x.Follows permits ends p)
    (handle : (e : Effect τ) → σ → e.Reply × σ) (s : σ) :
    ends (x.pastAfter handle s p) (x.run handle s).1 := by
  induction x generalizing p s with
  | done a => exact h
  | ask e next ih => exact ih _ (h.2 _) _

variable [Instant τ]

/-- Deeds, at one reading of the clock, that lead from a table to another. -/
def Replays (now : τ) : List (Deed τ) → Table τ → Table τ → Prop
  | [], t, t' => t = t'
  | .read n :: deeds, t, t' => n = now ∧ Replays now deeds t t'
  | .committed a r :: deeds, t, t' =>
    ∃ t₁, a.commit t = .ok (r, t₁) ∧ Replays now deeds t₁ t'

/-- Deeds are done one part after the other. -/
theorem replays_append {now : τ} {first second : List (Deed τ)} {t t' : Table τ} :
    Replays now (first ++ second) t t' ↔
      ∃ t₁, Replays now first t t₁ ∧ Replays now second t₁ t' := by
  induction first generalizing t with
  | nil =>
    constructor
    · intro h
      exact ⟨t, rfl, h⟩
    · rintro ⟨t₁, rfl, h⟩
      exact h
  | cons d rest ih =>
    cases d with
    | read n =>
      constructor
      · rintro ⟨hn, h⟩
        obtain ⟨t₁, hrest, hsecond⟩ := ih.1 h
        exact ⟨t₁, ⟨hn, hrest⟩, hsecond⟩
      · rintro ⟨t₁, ⟨hn, hrest⟩, hsecond⟩
        exact ⟨hn, ih.2 ⟨t₁, hrest, hsecond⟩⟩
    | committed a r =>
      constructor
      · rintro ⟨t₂, hcommit, h⟩
        obtain ⟨t₁, hrest, hsecond⟩ := ih.1 h
        exact ⟨t₁, ⟨t₂, hcommit, hrest⟩, hsecond⟩
      · rintro ⟨t₁, ⟨t₂, hcommit, hrest⟩, hsecond⟩
        exact ⟨t₂, hcommit, ih.2 ⟨t₁, hrest, hsecond⟩⟩

/-- Surroundings of a store that has its table to itself. -/
structure Surroundings (τ σ : Type) [Instant τ] where
  handle : (e : Effect τ) → σ → e.Reply × σ
  table : σ → Table τ
  clock : σ → τ
  /-- Sets the clock. -/
  advance : τ → σ → σ
  table_advance (now : τ) (s : σ) : table (advance now s) = table s
  clock_advance (now : τ) (s : σ) : clock (advance now s) = now
  /-- While a program is carried out, the clock stands still. -/
  clock_handle (e : Effect τ) (s : σ) : clock (handle e s).2 = clock s
  reading (s : σ) (now : τ) (h : (handle .readClock s).1 = .ok now) : now = clock s
  committed (a : Transaction τ) (s : σ) (r : a.Reply) (h : (handle (.attempt a) s).1 = .ok r) :
    a.commit (table s) = .ok (r, table (handle (.attempt a) s).2)
  failed (a : Transaction τ) (s : σ) (f : Failure) (h : (handle (.attempt a) s).1 = .error f) :
    table (handle (.attempt a) s).2 = table s
  /-- Only transactions change the table. -/
  untouched (e : Effect τ) (s : σ) (h : ∀ a, e ≠ .attempt a) : table (handle e s).2 = table s

namespace Surroundings

variable (w : Surroundings τ σ)

/-- What one effect adds to the deeds is what it does to the table. -/
theorem replays_after (e : Effect τ) (s : σ) (p : Past τ) :
    ∃ deeds, (p.after e (w.handle e s).1).deeds = p.deeds ++ deeds ∧
      Replays (w.clock s) deeds (w.table s) (w.table (w.handle e s).2) := by
  have hnothing : ∀ q : Past τ, q.deeds = p.deeds → w.table (w.handle e s).2 = w.table s →
      ∃ deeds, q.deeds = p.deeds ++ deeds ∧
        Replays (w.clock s) deeds (w.table s) (w.table (w.handle e s).2) := by
    intro q hq htable
    exact ⟨[], by rw [hq, List.append_nil], htable.symm⟩
  cases e with
  | readClock =>
    have htable := w.untouched .readClock s (fun a h => nomatch h)
    cases hr : (w.handle .readClock s).1 with
    | ok now =>
      refine ⟨[.read now], rfl, w.reading s now hr, htable.symm⟩
    | error f => exact hnothing _ rfl htable
  | attempt a =>
    cases hr : (w.handle (.attempt a) s).1 with
    | ok r => exact ⟨[.committed a r], rfl, _, w.committed a s r hr, rfl⟩
    | error f => exact hnothing _ rfl (w.failed a s f hr)
  | engine step =>
    exact hnothing _ (Past.deeds_after_engine p step _) (w.untouched _ s fun a h => nomatch h)
  | _ => exact hnothing _ rfl (w.untouched _ s fun a h => nomatch h)

/-- The deeds of a program that is carried out lead to the table that it leaves. -/
theorem replays (x : Program τ α) (s : σ) (p : Past τ) :
    ∃ deeds, (x.pastAfter w.handle s p).deeds = p.deeds ++ deeds ∧
      Replays (w.clock s) deeds (w.table s) (w.table (x.run w.handle s).2) := by
  induction x generalizing s p with
  | done a => exact ⟨[], (List.append_nil _).symm, rfl⟩
  | ask e next ih =>
    obtain ⟨first, hfirst, hreplays⟩ := w.replays_after e s p
    obtain ⟨rest, hrest, hreplays'⟩ := ih (w.handle e s).1 (w.handle e s).2
      (p.after e (w.handle e s).1)
    rw [w.clock_handle] at hreplays'
    refine ⟨first ++ rest, ?_, replays_append.2 ⟨_, hreplays, hreplays'⟩⟩
    rw [← List.append_assoc, ← hfirst]
    exact hrest

end Surroundings

end ExpiringStore
