import Mathlib.Data.List.Induction

/-!
# What happens to an engine and its gate

The engine of a store is opened and let go, its gate is opened and closed, and those who start the
store find the table made.  What has happened decides whether the engine is closed, and whether it
was let go before one who was starting the store found the table and opened the gate all the same.

    closed (h, m)      ↔   m lets it go, or closed h and m does not open it         (closed_concat)
    overtaken (h, m)   ↔   m finds the table, closed h, or
                           overtaken h and m neither opens the engine nor closes the gate
                                                                                 (overtaken_concat)
-/

namespace ExpiringStore

/-- What happens to the engine and the gate of a store. -/
inductive Incident where
  /-- The engine is opened. -/
  | opened
  /-- The engine is let go. -/
  | released
  /-- One who is starting the store finds the table made. -/
  | found
  /-- The gate is opened. -/
  | unbarred
  /-- The gate is closed. -/
  | barred
  deriving DecidableEq, Repr

/-- After every time that it was opened, the engine was let go. -/
def Closed (history : List Incident) : Prop :=
  ∀ earlier later, history = earlier ++ .opened :: later → .released ∈ later

/-- The engine was let go while one was starting the store, who found the table made after that, and
since then nobody has opened the engine or closed the gate. -/
def Overtaken (history : List Incident) : Prop :=
  ∃ earlier later, history = earlier ++ .found :: later ∧ Closed earlier ∧
    .opened ∉ later ∧ .barred ∉ later

variable {history : List Incident} {m : Incident}

theorem closed_nil : Closed [] := by
  intro earlier later h
  simp at h

theorem closed_concat :
    Closed (history ++ [m]) ↔ m = .released ∨ Closed history ∧ m ≠ .opened := by
  constructor
  · intro h
    by_cases hm : m = .released
    · exact .inl hm
    refine .inr ⟨fun earlier later heq => ?_, fun hopened => ?_⟩
    · -- What was let go later was not let go last.
      have hmem : .released ∈ later ++ [m] := by
        refine h earlier (later ++ [m]) ?_
        rw [heq, List.append_assoc, List.cons_append]
      rcases List.mem_append.1 hmem with hmem | hmem
      · exact hmem
      · exact absurd (List.mem_singleton.1 hmem).symm hm
    · cases h history [] (by rw [hopened])
  · intro h earlier later heq
    rcases List.eq_nil_or_concat later with rfl | ⟨init, last, rfl⟩
    · obtain ⟨-, hlast⟩ := List.append_inj' heq rfl
      obtain rfl := List.singleton_inj.1 hlast
      rcases h with h | ⟨-, h⟩
      · cases h
      · exact absurd rfl h
    · rw [List.concat_eq_append] at heq ⊢
      rw [← List.cons_append, ← List.append_assoc] at heq
      obtain ⟨hinit, hlast⟩ := List.append_inj' heq rfl
      obtain rfl := List.singleton_inj.1 hlast
      rcases h with rfl | ⟨h, -⟩
      · exact List.mem_append_right _ List.mem_cons_self
      · exact List.mem_append_left _ (h earlier init hinit)

theorem not_overtaken_nil : ¬ Overtaken [] := by
  rintro ⟨earlier, later, h, -⟩
  simp at h

theorem overtaken_concat : Overtaken (history ++ [m]) ↔
    (m = .found ∧ Closed history) ∨ (Overtaken history ∧ m ≠ .opened ∧ m ≠ .barred) := by
  constructor
  · rintro ⟨earlier, later, heq, hclosed, hopened, hbarred⟩
    rcases List.eq_nil_or_concat later with rfl | ⟨init, last, rfl⟩
    · obtain ⟨rfl, hlast⟩ := List.append_inj' heq rfl
      exact .inl ⟨List.singleton_inj.1 hlast, hclosed⟩
    · rw [List.concat_eq_append] at heq hopened hbarred
      rw [← List.cons_append, ← List.append_assoc] at heq
      obtain ⟨hinit, hlast⟩ := List.append_inj' heq rfl
      obtain rfl := List.singleton_inj.1 hlast
      have hlater {x : Incident} (h : x ∉ init ++ [m]) : x ∉ init ∧ m ≠ x := by
        refine ⟨fun mem => h (List.mem_append_left _ mem), ?_⟩
        rintro rfl
        exact h (List.mem_append_right _ List.mem_cons_self)
      refine .inr ⟨⟨earlier, init, hinit, hclosed, (hlater hopened).1, (hlater hbarred).1⟩, ?_⟩
      exact ⟨(hlater hopened).2, (hlater hbarred).2⟩
  · rintro (⟨rfl, hclosed⟩ | ⟨⟨earlier, later, rfl, hclosed, hopened, hbarred⟩, hm, hm'⟩)
    · exact ⟨history, [], rfl, hclosed, List.not_mem_nil, List.not_mem_nil⟩
    · have hlater {x : Incident} (h : x ∉ later) (hx : m ≠ x) : x ∉ later ++ [m] := by
        intro mem
        rcases List.mem_append.1 mem with mem | mem
        · exact h mem
        · exact hx (List.mem_singleton.1 mem).symm
      exact ⟨earlier, later ++ [m], by rw [List.append_assoc, List.cons_append], hclosed,
        hlater hopened hm, hlater hbarred hm'⟩

/-- Whoever is overtaken is left without an engine. -/
theorem Overtaken.closed (h : Overtaken history) : Closed history := by
  induction history using List.reverseRecOn with
  | nil => exact absurd h not_overtaken_nil
  | append_singleton history m ih =>
    rcases overtaken_concat.1 h with ⟨rfl, hclosed⟩ | ⟨hbefore, hm, -⟩
    · exact closed_concat.2 (.inr ⟨hclosed, nofun⟩)
    · exact closed_concat.2 (.inr ⟨ih hbefore, hm⟩)

end ExpiringStore
