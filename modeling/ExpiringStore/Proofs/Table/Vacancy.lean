import ExpiringStore.Proofs.Lifetime.Known
import ExpiringStore.Proofs.Table.Commit

/-!
# Vacant keys

A key is vacant if there is no row of it, or only one that has expired.  A conditional insertion
writes exactly what an unconditional one writes where the key is vacant, and asks for the live row
where it is not.  If the row of the key is decided, it finds one, so that it never ends with
neither.

    vacant t k now       →   commit t (writeIfAbsent k r now) = commit t (write [(k, r)]), inserted
    not vacant t k now   →   commit t (writeIfAbsent k r now) = the live row, as it is read
-/

namespace ExpiringStore

variable {τ : Type} [Instant τ]

namespace Table

/-- Is there no row of the key, or only one that has expired? -/
def isVacant (t : Table τ) (key : String) (now : τ) : Bool :=
  (t.find? key).all fun r => (Condition.expired r now).holds

def hasLive (t : Table τ) (key : String) (now : τ) : Bool :=
  (t.find? key).any fun r => (Condition.live r now).holds

/-- Where rows are decided, a key is vacant or has a live row. -/
theorem hasLive_eq {t : Table τ} {key : String} {now : τ}
    (decided : ∀ r, t.find? key = some r → r.IsDecided now) :
    t.hasLive key now = !t.isVacant key now := by
  unfold hasLive isVacant
  cases hfind : t.find? key with
  | none => rfl
  | some r => exact decided r hfind

end Table

namespace Transaction

variable {t : Table τ} {key : String} {row kept old : Row τ} {now : τ}

theorem commit_isLive : commit t (.isLive key now) = .ok (t.hasLive key now, t) := by
  rw [commit_eq]
  simp only [firstOn]
  unfold Table.hasLive
  cases t.find? key <;> rfl

theorem commit_write_one (keeps : constrained row = .ok kept) :
    commit t (.write [(key, row)]) = .ok ((), t.insert key kept) := by
  rw [commit_eq]
  simp only [firstOn, writeRows, keeps]
  rfl

theorem commit_writeIfAbsent_vacant (keeps : constrained row = .ok kept)
    (vacant : t.isVacant key now = true) :
    commit t (.writeIfAbsent key row now) = .ok (.inserted, t.insert key kept) := by
  have hinserts : insertUnlessLive t key row now = .ok (true, t.insert key kept) := by
    unfold Table.isVacant at vacant
    unfold insertUnlessLive
    rw [keeps]
    cases hfind : t.find? key with
    | none => rfl
    | some old =>
      rw [hfind] at vacant
      exact if_pos vacant
  rw [commit_eq]
  simp only [firstOn, hinserts]
  rfl

theorem commit_writeIfAbsent_live (keeps : constrained row = .ok kept)
    (found : t.find? key = some old) (decided : old.IsDecided now)
    (live : (Condition.live old now).holds = true) :
    commit t (.writeIfAbsent key row now) = (readable old).map fun r => (.present r, t) := by
  have hnot : (Condition.expired old now).holds = false := by
    rw [decided] at live
    simpa using live
  have hinserts : insertUnlessLive t key row now = .ok (false, t) := by
    unfold insertUnlessLive
    rw [keeps, found]
    exact if_neg (Bool.eq_false_iff.1 hnot)
  have hlive : liveRow t key now = (readable old).map .present := by
    unfold liveRow
    rw [found]
    exact if_pos live
  rw [commit_eq]
  simp only [firstOn, hinserts]
  show (liveRow t key now).map _ = _
  rw [hlive]
  cases readable old <;> rfl

end Transaction

end ExpiringStore
