import ExpiringStore.Proofs.Desk.OnLive

/-!
# What a table refuses

At an obliging station only the table itself can refuse what a call makes, whatever payloads it
keeps.  So a call has its account, or it makes a transaction that the table refuses as it is, and
then it leaves everything as it is.

    trouble of a program was met after some of its marks                           (trouble_met)
    a call has its account, or makes what its table refuses                (accounts_or_refused)
-/

namespace ExpiringStore

variable {τ σ α : Type}

/-! ## Where trouble is met -/

namespace Host

variable [Instant τ] (h : Host τ σ)

/-- What a program is in trouble with, it met on its way, after some of its marks. -/
theorem trouble_met (x : Program τ α) (s : σ) (t : Trail τ) {y : Trouble τ}
    (met : y ∈ (x.trailAfter h.handle s t).troubles) :
    y ∈ t.troubles ∨ ∃ (e : Effect τ) (s' : σ) (ms rest : List (Mark τ)),
      e.trouble? (h.handle e s').1 = some y ∧
      (x.trailAfter h.handle s t).marks = t.marks ++ (ms ++ rest) ∧
      Does h.listens ms (h.desk s) (h.desk s') := by
  induction x generalizing s t with
  | done a => exact .inl met
  | ask e next ih =>
    obtain ⟨all, hall, -⟩ := h.does (next (h.handle e s).1) (h.handle e s).2
      (t.after e (h.handle e s).1)
    rcases ih (h.handle e s).1 (h.handle e s).2 (t.after e (h.handle e s).1) met with
      before | ⟨e', s', ms, rest, htrouble, hmarks, hdoes⟩
    · rw [Trail.troubles_after] at before
      rcases List.mem_append.1 before with before | now
      · exact .inl before
      · refine .inr ⟨e, s, [], (e.mark? (h.handle e s).1).toList ++ all, ?_, ?_, rfl⟩
        · exact Option.mem_toList.1 now
        · rw [List.nil_append, ← List.append_assoc, ← t.marks_after]
          exact hall
    · refine .inr ⟨e', s', (e.mark? (h.handle e s).1).toList ++ ms, rest, htrouble, ?_, ?_⟩
      · rw [List.append_assoc, ← List.append_assoc t.marks, ← t.marks_after]
        exact hmarks
      · exact does_append.2 ⟨_, h.does_mark? e s, hdoes⟩

end Host

namespace Station

variable [OrderedInstant τ] (h : Station τ σ)

/-- What a program reads of the clock is what it shows all the while. -/
theorem read_of_run (x : Program τ α) (s : σ) (t : Trail τ) (n : τ)
    (read : .read n ∈ (x.trailAfter h.handle s t).marks) : .read n ∈ t.marks ∨ n = h.clock s := by
  induction x generalizing s t with
  | done a => exact .inl read
  | ask e next ih =>
    rcases ih (h.handle e s).1 (h.handle e s).2 (t.after e (h.handle e s).1) read with before | rfl
    · rw [t.marks_after] at before
      refine (List.mem_append.1 before).imp_right fun now => ?_
      cases e with
      | readClock =>
        rw [h.reads s] at now
        exact Mark.read.inj (List.mem_singleton.1 now)
      | attempt a => cases hr : (h.handle (.attempt a) s).1 <;> simp [hr, Effect.mark?] at now
      | _ => simp [Effect.mark?] at now
    · exact .inr (h.clock_handle e s)

/-- At a station, only transactions are trouble. -/
theorem attempt_of_trouble {e : Effect τ} {s : σ} {y : Trouble τ}
    (trouble : e.trouble? (h.handle e s).1 = some y) :
    ∃ a f, y = .attempt a f ∧ (h.handle (.attempt a) s).1 = .error f := by
  cases e with
  | readClock =>
    rw [h.reads s] at trouble
    cases trouble
  | attempt a =>
    cases hr : (h.handle (.attempt a) s).1 with
    | ok r =>
      rw [hr] at trouble
      cases trouble
    | error f =>
      rw [hr] at trouble
      exact ⟨a, f, (Option.some.inj trouble).symm, hr⟩
  | engine step =>
    replace trouble : (if step.succeeded _ then none else some (.engine _)) = some y := trouble
    rw [if_pos (h.succeeds step s)] at trouble
    cases trouble
  | _ => cases trouble

variable [Delay τ] {h} {c : Config τ} {s : σ}

/-- What a call does is carried out at one instant, on any table. -/
theorem carried_anyway (call : Call) : Call.Carried (h.clock s) (h.trail c call s).marks (h.desk s)
    (h.desk (h.answer c call s).2) := by
  refine ⟨fun n read => ?_, h.listens, h.silent, (h.answer_concludes c call s).2⟩
  exact (h.read_of_run _ s {} n read).resolve_left nofun

/-- A call has its account, or its table refuses what it makes; then it leaves all as it is. -/
theorem accounts_or_refused (obliging : h.Obliging c) (call : Call) :
    call.Accounts c (h.trail c call s) (h.answer c call s).1 ∨
      ∃ (f g : Failure) (a : Transaction τ), (h.answer c call s).1 = .error f ∧
        h.desk (h.answer c call s).2 = h.desk s ∧ call.Makes c (h.trail c call s).deeds a ∧
        a.commit (h.desk s).table = .error g := by
  obtain ⟨hends, hdoes⟩ := h.answer_concludes c call s
  rcases hends with ⟨f, hf, idle, broken⟩ | haccounts
  · have hmet {y : Trouble τ} (met : y ∈ (h.trail c call s).troubles) :
        ∃ a g s', y = .attempt a g ∧ (h.handle (.attempt a) s').1 = .error g ∧
          h.desk s' = h.desk s := by
      obtain ⟨e, s', ms, rest, htrouble, hmarks, hbefore⟩ :=
        (h.trouble_met _ s {} met).resolve_left nofun
      obtain ⟨a, g, hy, hfailed⟩ := h.attempt_of_trouble htrouble
      refine ⟨a, g, s', hy, hfailed, hbefore.idle ?_⟩
      -- What was done before the trouble was met is idle, as all of it is.
      replace hmarks : (h.trail c call s).marks = ms ++ rest := hmarks
      rw [hmarks, List.all_append] at idle
      exact (Bool.and_eq_true_iff.1 idle).1
    cases broken with
    | clock met => obtain ⟨a, g, s', hy, -⟩ := hmet met; cases hy
    | engine met own => obtain ⟨a, g, s', hy, -⟩ := hmet met; cases hy
    | @attempt a f g met made reported strict =>
      obtain ⟨a, g, s', hy, hfailed, hdesk⟩ := hmet met
      obtain ⟨rfl, rfl⟩ := Trouble.attempt.inj hy
      rcases obliging a s' g hfailed with hrefused | ⟨⟨key, now, rfl⟩, excused⟩
      · exact .inr ⟨f, g, a, hf, hdoes.idle idle, made, hdesk ▸ hrefused⟩
      · cases (strict rfl).symm ▸ excused f reported
  · exact .inl haccounts

end Station

end ExpiringStore
