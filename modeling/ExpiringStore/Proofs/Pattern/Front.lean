import ExpiringStore.Pattern.Like

/-!
# The front of a match pattern

A text that a match pattern accepts begins with the front of the pattern.  So a pattern is tried
against every key that it would select, and if it is too long it overtaxes each of them.

    column (c :: text) p   =   b :: column text p   for some b             (column_cons)
    accepts p text   →   text begins with front p                          (front_of_accepts)
-/

namespace ExpiringStore.Like

theorem oneThen_cons (test : Char → Bool) (c : Char) (text : List Char) (b : Bool)
    (later : List Bool) : oneThen test (c :: text) (b :: later) =
      (test c && later.headD false) :: oneThen test text later := rfl

theorem anyThen_cons (b : Bool) (later : List Bool) :
    anyThen (b :: later) = (b || (anyThen later).headD false) :: anyThen later := rfl

/-- The column of a longer text is that of the text with one more entry. -/
theorem column_cons (c : Char) (text p : List Char) :
    ∃ b, column (c :: text) p = b :: column text p := by
  induction p using column.induct with
  | case1 => exact ⟨false, rfl⟩
  | case2 => exact ⟨_, rfl⟩
  | case3 d rest ih =>
    obtain ⟨b, hb⟩ := ih
    rw [column, hb, column, oneThen_cons]
    exact ⟨_, rfl⟩
  | case4 d rest h h' hany ih =>
    obtain ⟨b, hb⟩ := ih
    rw [column.eq_4 _ d rest h h', column.eq_4 _ d rest h h', if_pos hany, if_pos hany, hb,
      anyThen_cons]
    exact ⟨_, rfl⟩
  | case5 d rest h h' hany hone ih =>
    obtain ⟨b, hb⟩ := ih
    rw [column.eq_4 _ d rest h h', column.eq_4 _ d rest h h', if_neg hany, if_neg hany,
      if_pos hone, if_pos hone, hb, oneThen_cons]
    exact ⟨_, rfl⟩
  | case6 d rest h h' hany hone ih =>
    obtain ⟨b, hb⟩ := ih
    rw [column.eq_4 _ d rest h h', column.eq_4 _ d rest h h', if_neg hany, if_neg hany,
      if_neg hone, if_neg hone, hb, oneThen_cons]
    exact ⟨_, rfl⟩

/-- A text that passes a test on its first character has one, and what follows is accepted. -/
theorem of_oneThen {test : Char → Bool} {text p : List Char}
    (h : (oneThen test text (column text p)).headD false = true) :
    ∃ c rest, text = c :: rest ∧ test c = true ∧ accepts p rest = true := by
  cases text with
  | nil => cases h
  | cons c rest =>
    obtain ⟨b, hb⟩ := column_cons c rest p
    rw [hb, oneThen_cons] at h
    obtain ⟨htest, hrest⟩ := Bool.and_eq_true_iff.1 h
    exact ⟨c, rest, rfl, htest, hrest⟩

/-- A text begins with the front of a pattern that accepts it. -/
theorem front_of_accepts {p text : List Char} (h : accepts p text = true) :
    (front p).isPrefixOf text = true := by
  unfold accepts at h
  induction p using front.induct generalizing text with
  | case1 => rfl
  | case2 =>
    obtain ⟨c, rest, -, htest, -⟩ := of_oneThen (p := []) h
    cases htest
  | case3 d rest ih =>
    obtain ⟨c, tail, rfl, htest, hrest⟩ := of_oneThen h
    obtain rfl := beq_iff_eq.1 htest
    rw [front, List.isPrefixOf_cons_cons, beq_self_eq_true, Bool.true_and]
    exact ih hrest
  | case4 d rest h₁ h₂ hwild => rw [front.eq_4 d rest h₁ h₂, if_pos hwild, List.isPrefixOf]
  | case5 d rest h₁ h₂ hplain ih =>
    obtain ⟨hany, hone⟩ : ¬ (d == '%') = true ∧ ¬ (d == '_') = true := by
      simpa using hplain
    rw [column.eq_4 _ d rest h₁ h₂, if_neg hany, if_neg hone] at h
    obtain ⟨c, tail, rfl, htest, hrest⟩ := of_oneThen h
    obtain rfl := beq_iff_eq.1 htest
    rw [front.eq_4 _ _ h₁ h₂, if_neg hplain, List.isPrefixOf_cons_cons, beq_self_eq_true,
      Bool.true_and]
    exact ih hrest

/-- A pattern that is too long overtaxes every key that it would select. -/
theorem overtaxes_of_selects {pattern key : String} (h : selects pattern key = true)
    (long : longest < pattern.utf8ByteSize) : overtaxes pattern key = true := by
  unfold overtaxes
  rw [front_of_accepts h, Bool.and_true]
  exact decide_eq_true long

/-! ## All keys -/

theorem anyThen_headD {bs : List Bool} (h : true ∈ bs) : (anyThen bs).headD false = true := by
  induction bs with
  | nil => cases h
  | cons b rest ih =>
    rw [anyThen_cons]
    rcases List.mem_cons.1 h with rfl | h
    · rfl
    · show (b || _) = true
      rw [ih h, Bool.or_true]

theorem mem_nothing (text : List Char) : true ∈ nothing text := by
  induction text with
  | nil => exact List.mem_cons_self
  | cons c rest ih => exact List.mem_cons_of_mem _ ih

end ExpiringStore.Like

namespace ExpiringStore

/-- The pattern of any sequence selects every key. -/
theorem Like.selects_all (key : String) : Like.selects (likeOfGlob "*") key = true := by
  have hpattern : Like.visible (likeOfGlob "*").toList = ['%'] := by decide
  unfold Like.selects
  rw [hpattern]
  exact anyThen_headD (mem_nothing _)

end ExpiringStore
