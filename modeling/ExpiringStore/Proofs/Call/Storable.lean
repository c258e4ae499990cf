import ExpiringStore.Proofs.Call.Contract
import ExpiringStore.Proofs.Table.Storable

/-!
# Calls that can be carried out

Whether the storage can do what a call asks of it can be told from the call alone: lifetimes are to
fit a word, and patterns are not to be too long.

    isStorable c call   →   call makes storable transactions only         (Makes.isStorable)
-/

namespace ExpiringStore

variable {τ : Type} [OrderedInstant τ]

/-- Can a table keep what a call is to write, and match the pattern that it asks for? -/
def Call.isStorable (c : Config τ) : Call → Bool
  | .getKeys pattern => (Arguments.pattern pattern "get_keys").toOption.all fun g =>
    (likeOfGlob g).utf8ByteSize ≤ Like.longest
  | .put key value ttl policy =>
    (Arguments.written c "put" key value ttl policy).toOption.all (·.ttl.all fitsWord)
  | .putIfAbsent key value ttl policy =>
    (Arguments.written c "put_if_absent" key value ttl policy).toOption.all (·.ttl.all fitsWord)
  | .putAll entries ttl policy =>
    (Arguments.writtenMany c entries ttl policy).toOption.all (·.ttl.all fitsWord)
  | .refreshTtl key ttl policy =>
    (Arguments.renewal key ttl policy).toOption.all (fitsWord ·.ttl)
  | .evictByPattern pattern => (Arguments.pattern pattern "evict_by_pattern").toOption.all fun g =>
    (likeOfGlob g).utf8ByteSize ≤ Like.longest
  | _ => true

/-- A row is storable if its lifetime is; its payload is a document. -/
theorem isStorable_rowOf {p : Json} {ttl : Option Int} (h : ttl.all fitsWord = true)
    (policy : Policy) (now : τ) : (Operation.rowOf p ttl policy now).isStorable = true := by
  show ((ttl.map Instant.ofSeconds).all Instant.fits && true) = true
  rw [Bool.and_true]
  cases ttl with
  | none => rfl
  | some n => exact OrderedInstant.fits_ofSeconds h

theorem Like.short_all : (likeOfGlob "*").utf8ByteSize ≤ Like.longest := by decide

theorem Call.Makes.isStorable {c : Config τ} {call : Call} {deeds : List (Deed τ)}
    {a : Transaction τ} (h : call.Makes c deeds a) (hc : call.isStorable c = true) :
    a.isStorable = true := by
  cases h with
  | put given =>
    simp only [Call.isStorable, given, Except.toOption, Option.all_some] at hc
    refine List.all_eq_true.2 fun q mem => ?_
    obtain rfl := List.mem_singleton.1 mem
    exact isStorable_rowOf hc _ _
  | putIfAbsent given =>
    simp only [Call.isStorable, given, Except.toOption, Option.all_some] at hc
    exact isStorable_rowOf hc _ _
  | putAll given =>
    simp only [Call.isStorable, given, Except.toOption, Option.all_some] at hc
    refine List.all_eq_true.2 fun q mem => ?_
    obtain ⟨e, -, rfl⟩ := List.mem_map.1 mem
    exact isStorable_rowOf hc _ _
  | refreshTtl given | getKeys given | evictByPattern given =>
    simp only [Call.isStorable, given, Except.toOption, Option.all_some] at hc
    exact hc
  | getAllKeys => exact decide_eq_true Like.short_all
  | _ => rfl

/-- What a call writes can be read again. -/
theorem Call.Makes.isLegible {c : Config τ} {call : Call} {deeds : List (Deed τ)}
    {a : Transaction τ} (h : call.Makes c deeds a) : a.isLegible = true := by
  cases h with
  | putAll given =>
    refine List.all_eq_true.2 fun q mem => ?_
    obtain ⟨e, -, rfl⟩ := List.mem_map.1 mem
    rfl
  | _ => rfl

end ExpiringStore
