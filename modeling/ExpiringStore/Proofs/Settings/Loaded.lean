import ExpiringStore.Proofs.Number.Exact
import ExpiringStore.Settings.Reading

/-!
# Settings that are loaded

Settings are loaded only if every field fits: its value was read and lies within its limits, or it
is the fallback.

    load … = .ok s   →   nothing is wrong with a field of s                     (load_ok)
    load … = .ok s   →   the default lifetime, if there is one, is at least a second
                                                                         (defaultTtl_of_load)
-/

namespace ExpiringStore.Settings

/-- The value of a field that fits is the fallback or was read. -/
theorem field_ok {α : Type} {s : Sources} {name : String} {fallback : α}
    {read : Value → Except Issue.Reason α} (h : (field s name fallback read).2 = []) :
    (field s name fallback read).1 = fallback ∨
      ∃ v, read v = .ok (field s name fallback read).1 := by
  cases hfound : s.find? name with
  | none => exact .inl (by simp only [field, hfound])
  | some v =>
    cases hv : read v with
    | ok a => exact .inr ⟨v, by simp only [field, hfound, hv]⟩
    | error reason =>
      simp only [field, hfound, hv] at h
      cases h

theorem integer_ok {least most : Option Int} {n : Int} {v : Value}
    (h : integer least most v = .ok n) : (∀ m ∈ least, m ≤ n) ∧ ∀ m ∈ most, n ≤ m := by
  unfold integer at h
  cases hv : (Scalar.integer? v).mapError Issue.Reason.mismatch with
  | error reason =>
    rw [hv] at h
    cases h
  | ok m =>
    rw [hv] at h
    have hmost : ∀ x ∈ most, ¬x < m := by
      rintro x rfl hlt
      simp [hlt, bind, Except.bind, throw, throwThe, MonadExceptOf.throw] at h
    have hleast : ∀ x ∈ least, ¬m < x := by
      rintro x rfl hlt
      cases most with
      | none => simp [hlt, bind, Except.bind, throw, throwThe, MonadExceptOf.throw] at h
      | some y =>
        simp [hlt, hmost y rfl, bind, Except.bind, throw, throwThe, MonadExceptOf.throw] at h
    obtain rfl : m = n := by
      cases most with
      | none =>
        cases least with
        | none => exact Except.ok.inj h
        | some x => simpa [hleast x rfl, bind, Except.bind, pure, Except.pure] using h
      | some y =>
        cases least with
        | none => simpa [hmost y rfl, bind, Except.bind, pure, Except.pure] using h
        | some x =>
          simpa [hmost y rfl, hleast x rfl, bind, Except.bind, pure, Except.pure] using h
    exact ⟨fun x hx => not_lt.1 (hleast x hx), fun x hx => not_lt.1 (hmost x hx)⟩

theorem double_ok {least most : Int} {x : Float} {v : Value}
    (h : double (some least) (some most) none v = .ok x) :
    (Number.int least).le (.float x) = true ∧ (Number.float x).le (.int most) = true := by
  unfold double at h
  cases hv : (Scalar.double? v).mapError Issue.Reason.mismatch with
  | error reason =>
    rw [hv] at h
    cases h
  | ok y =>
    rw [hv] at h
    cases hmost : (Number.float y).le (.int most) with
    | false => simp [hmost, bind, Except.bind, throw, throwThe, MonadExceptOf.throw] at h
    | true =>
      cases hleast : (Number.int least).le (.float y) with
      | false =>
        simp [hmost, hleast, bind, Except.bind, throw, throwThe, MonadExceptOf.throw] at h
      | true =>
        simp [hmost, hleast, bind, Except.bind, pure, Except.pure] at h
        subst h
        exact ⟨hleast, hmost⟩

/-- A field with a whole number within limits, if its fallback is. -/
theorem integer_field {s : Sources} {name : String} {least most fallback : Int}
    (hfallback : least ≤ fallback ∧ fallback ≤ most)
    (h : (field s name fallback (integer (some least) (some most))).2 = []) :
    least ≤ (field s name fallback (integer (some least) (some most))).1 ∧
      (field s name fallback (integer (some least) (some most))).1 ≤ most := by
  rcases field_ok h with heq | ⟨v, hv⟩
  · rw [heq]
    exact hfallback
  · exact ⟨(integer_ok hv).1 _ rfl, (integer_ok hv).2 _ rfl⟩

/-- A field with a double within limits has an exact value within them, if its fallback has. -/
theorem double_field {s : Sources} {name : String} {least most : Int} {fallback : Float}
    (hfallback : (Number.int least).le (.float fallback) = true ∧
      (Number.float fallback).le (.int most) = true)
    (h : (field s name fallback (double (some least) (some most) none)).2 = []) :
    ∃ q : ℚ,
      (Number.float (field s name fallback (double (some least) (some most) none)).1).value? =
        some q ∧ least ≤ q ∧ q ≤ most := by
  rcases field_ok h with heq | ⟨v, hv⟩
  · rw [heq]
    exact Number.value?_between hfallback.1 hfallback.2
  · obtain ⟨hleast, hmost⟩ := double_ok hv
    exact Number.value?_between hleast hmost

/-- Settings that are loaded are those of their sources, and nothing is wrong with a field. -/
theorem load_ok {files files' : Files} {sources : Sources} {s : Settings}
    (h : load files sources = (.ok s, files')) :
    s = (ofSources sources).1 ∧ (ofSources sources).2 = [] := by
  unfold load at h
  generalize ofSources sources = read at h ⊢
  obtain ⟨settings, issues⟩ := read
  dsimp only at h ⊢
  generalize ((!issues.any _) && _) = embedded at h
  split at h
  · cases h
  · cases embedded with
    | true => cases (Prod.mk.inj h).1
    | false =>
      simp only [Bool.false_eq_true, if_false] at h
      split at h
      · next hissues =>
        obtain ⟨hs, -⟩ := Prod.mk.inj h
        exact ⟨(Except.ok.inj hs).symm, List.isEmpty_iff.1 hissues⟩
      · cases (Prod.mk.inj h).1

/-- A value that may be missing lies within limits if it is there. -/
theorem optional_ok {least : Int} {n? : Option Int} {v : Value}
    (h : optional (integer (some least) none) v = .ok n?) : ∀ n ∈ n?, least ≤ n := by
  unfold optional at h
  split at h
  · obtain rfl := Except.ok.inj h
    exact nofun
  · cases hn : integer (some least) none v with
    | error reason => rw [hn] at h; cases h
    | ok n =>
      rw [hn] at h
      obtain rfl := Except.ok.inj h
      rintro _ ⟨⟩
      exact (integer_ok hn).1 _ rfl

/-- A lifetime that is given by default is at least one second. -/
theorem defaultTtl_of_load {files files' : Files} {sources : Sources} {s : Settings}
    (h : load files sources = (.ok s, files')) : ∀ n ∈ s.defaultTtl, 1 ≤ n := by
  obtain ⟨rfl, hissues⟩ := load_ok h
  simp only [ofSources, List.append_eq_nil_iff] at hissues
  obtain ⟨⟨⟨⟨⟨⟨⟨⟨⟨⟨⟨⟨-, hdefault⟩, -⟩, -⟩, -⟩, -⟩, -⟩, -⟩, -⟩, -⟩, -⟩, -⟩, -⟩ := hissues
  intro n hn
  rcases field_ok hdefault with heq | ⟨v, hv⟩
  · rw [show (ofSources sources).1.defaultTtl = _ from heq] at hn
    cases hn
  · exact optional_ok hv n hn

end ExpiringStore.Settings
