import ExpiringStore.Pattern.Basic
import ExpiringStore.Proofs.Pattern.Front
import Mathlib.Data.List.TakeWhile

/-!
# What a match pattern means

A match pattern is well-formed if every backslash takes a character that would be special without
it.  Such a pattern denotes a list of tokens, and the matcher accepts the texts that these describe.
The match pattern of a key pattern denotes the tokens of the key pattern.

    Denotes (ofGlob p) (tokens p)                                                (denotes_ofGlob)
    Denotes q ts   →   (accepts q s  ↔  Accepts ts s)                            (accepts_iff)
    only what stands before a null character is matched                          (selects_iff)
-/

namespace ExpiringStore.Like

open Pattern (Token Accepts tokens)

/-! ## Well-formed patterns -/

/-- Is every backslash, read from left to right, followed by a character that it takes literally? -/
def isWellFormed : List Char → Bool
  | [] => true
  | ['\\'] => false
  | '\\' :: c :: rest => isSpecial c && isWellFormed rest
  | _ :: rest => isWellFormed rest

/-- The tokens that a well-formed match pattern stands for. -/
inductive Denotes : List Char → List Token → Prop where
  | nil : Denotes [] []
  | any {q : List Char} {ts : List Token} : Denotes q ts → Denotes ('%' :: q) (.anySequence :: ts)
  | one {q : List Char} {ts : List Token} : Denotes q ts → Denotes ('_' :: q) (.anyCharacter :: ts)
  | escaped {c : Char} {q : List Char} {ts : List Token} (special : isSpecial c = true) :
      Denotes q ts → Denotes ('\\' :: c :: q) (.literal c :: ts)
  | plain {c : Char} {q : List Char} {ts : List Token} (ordinary : isSpecial c = false) :
      Denotes q ts → Denotes (c :: q) (.literal c :: ts)

/-- A character that is not special is none of the three that are. -/
theorem ne_of_ordinary {c : Char} (h : isSpecial c = false) : c ≠ '%' ∧ c ≠ '_' ∧ c ≠ '\\' := by
  simpa [isSpecial, and_assoc] using h

theorem Denotes.isWellFormed {q : List Char} {ts : List Token} (h : Denotes q ts) :
    isWellFormed q = true := by
  induction h with
  | nil => rfl
  | any _ ih => exact ih
  | one _ ih => exact ih
  | escaped special _ ih => exact Bool.and_eq_true_iff.2 ⟨special, ih⟩
  | plain ordinary _ ih =>
    obtain ⟨-, -, hslash⟩ := ne_of_ordinary ordinary
    rwa [Like.isWellFormed.eq_4 _ _ (fun h _ => hslash h) (fun _ _ h _ => hslash h)]

/-- The match pattern of a key pattern denotes the tokens of the key pattern. -/
theorem denotes_ofGlob (p : List Char) : Denotes (ofGlob p) (tokens p) := by
  induction p using ofGlob.induct with
  | case1 => exact .nil
  | case2 => exact .escaped rfl .nil
  | case3 c rest ih =>
    rw [ofGlob, tokens]
    cases special : isSpecial c with
    | true => exact .escaped special ih
    | false => exact .plain special ih
  | case4 c rest h h' ih =>
    rw [ofGlob.eq_4 c rest h h', tokens.eq_4 c rest h h']
    have hslash : c ≠ '\\' := by
      rintro rfl
      cases rest with
      | nil => exact h rfl rfl
      | cons d rest => exact h' d rest rfl rfl
    by_cases hstar : c = '*'
    · subst hstar
      exact .any ih
    by_cases hmark : c = '?'
    · subst hmark
      exact .one ih
    by_cases hpercent : c = '%'
    · subst hpercent
      exact .any ih
    by_cases hbar : c = '_'
    · subst hbar
      exact .one ih
    have hordinary : isSpecial c = false := by simp [isSpecial, hpercent, hbar, hslash]
    simpa [hstar, hmark, hpercent, hbar] using Denotes.plain hordinary ih

/-! ## Matching -/

/-- A test on one character, and then the rest of the pattern. -/
theorem oneThen_iff (test : Char → Bool) (text p : List Char) :
    (oneThen test text (column text p)).headD false = true ↔
      ∃ c rest, text = c :: rest ∧ test c = true ∧ accepts p rest = true := by
  refine ⟨of_oneThen, ?_⟩
  rintro ⟨c, rest, rfl, htest, hrest⟩
  obtain ⟨b, hb⟩ := column_cons c rest p
  rw [hb, oneThen_cons]
  exact Bool.and_eq_true_iff.2 ⟨htest, hrest⟩

theorem column_nil (p : List Char) : ∃ b, column [] p = [b] := by
  induction p using column.induct with
  | case1 | case2 => exact ⟨_, rfl⟩
  | case3 d rest ih => exact ⟨false, rfl⟩
  | case4 d rest h h' hany ih =>
    obtain ⟨b, hb⟩ := ih
    rw [column.eq_4 _ d rest h h', if_pos hany, hb]
    exact ⟨_, rfl⟩
  | case5 d rest h h' hany hone ih =>
    rw [column.eq_4 _ d rest h h', if_neg hany, if_pos hone]
    exact ⟨false, rfl⟩
  | case6 d rest h h' hany hone ih =>
    rw [column.eq_4 _ d rest h h', if_neg hany, if_neg hone]
    exact ⟨false, rfl⟩

/-- A column tells which tails of the text are accepted. -/
theorem mem_column (text p : List Char) :
    true ∈ column text p ↔ ∃ before rest, text = before ++ rest ∧ accepts p rest = true := by
  induction text with
  | nil =>
    obtain ⟨b, hb⟩ := column_nil p
    have haccepts : accepts p [] = b := by rw [accepts, hb, List.headD_cons]
    rw [hb, List.mem_singleton]
    constructor
    · rintro rfl
      exact ⟨[], [], rfl, haccepts⟩
    · rintro ⟨before, rest, htext, h⟩
      obtain ⟨rfl, rfl⟩ := List.append_eq_nil_iff.1 htext.symm
      exact h.symm.trans haccepts
  | cons c text ih =>
    obtain ⟨b, hb⟩ := column_cons c text p
    have haccepts : accepts p (c :: text) = b := by rw [accepts, hb, List.headD_cons]
    rw [hb, List.mem_cons, ih]
    constructor
    · rintro (rfl | ⟨before, rest, rfl, h⟩)
      · exact ⟨[], _, rfl, haccepts⟩
      · exact ⟨c :: before, rest, rfl, h⟩
    · rintro ⟨before, rest, htext, h⟩
      rcases List.cons_eq_append_iff.1 htext with ⟨rfl, rfl⟩ | ⟨before, rfl, rfl⟩
      · exact .inl (h.symm.trans haccepts)
      · exact .inr ⟨before, rest, rfl, h⟩

theorem mem_of_anyThen_headD {bs : List Bool} (h : (anyThen bs).headD false = true) :
    true ∈ bs := by
  induction bs with
  | nil => cases h
  | cons b rest ih =>
    rw [anyThen_cons, List.headD_cons] at h
    rcases Bool.or_eq_true_iff.1 h with rfl | h
    · exact List.mem_cons_self
    · exact List.mem_cons_of_mem _ (ih h)

/-! ## What is accepted -/

theorem accepts_nil (s : List Char) : accepts [] s = true ↔ s = [] := by
  cases s with
  | nil => exact ⟨fun _ => rfl, fun _ => rfl⟩
  | cons c s => exact ⟨nofun, nofun⟩

theorem accepts_any (q s : List Char) :
    accepts ('%' :: q) s = true ↔ ∃ before rest, s = before ++ rest ∧ accepts q rest = true := by
  rw [← mem_column]
  exact ⟨mem_of_anyThen_headD, anyThen_headD⟩

theorem accepts_one (q s : List Char) :
    accepts ('_' :: q) s = true ↔ ∃ c rest, s = c :: rest ∧ accepts q rest = true :=
  (oneThen_iff ..).trans (by simp)

theorem accepts_escaped (c : Char) (q s : List Char) :
    accepts ('\\' :: c :: q) s = true ↔ ∃ rest, s = c :: rest ∧ accepts q rest = true := by
  refine (oneThen_iff ..).trans ⟨?_, ?_⟩
  · rintro ⟨d, rest, rfl, hd, hrest⟩
    exact ⟨rest, by rw [beq_iff_eq.1 hd], hrest⟩
  · rintro ⟨rest, rfl, hrest⟩
    exact ⟨c, rest, rfl, beq_self_eq_true c, hrest⟩

/-- A character that is not special stands for itself, as an escaped one does. -/
theorem accepts_plain {c : Char} (ordinary : isSpecial c = false) (q s : List Char) :
    accepts (c :: q) s = accepts ('\\' :: c :: q) s := by
  obtain ⟨hpercent, hbar, hslash⟩ := ne_of_ordinary ordinary
  unfold accepts
  rw [column.eq_4 _ _ _ (fun h _ => hslash h) (fun _ _ h _ => hslash h), if_neg (by simpa),
    if_neg (by simpa), column]

end ExpiringStore.Like

namespace ExpiringStore.Pattern

/-- Any sequence is what stands before a text that the rest of the pattern describes. -/
theorem accepts_anySequence {ts : List Token} {s : List Char} :
    Accepts (.anySequence :: ts) s ↔ ∃ before rest, s = before ++ rest ∧ Accepts ts rest := by
  constructor
  · intro h
    generalize hp : Token.anySequence :: ts = p at h
    induction h with
    | skip hrest =>
      obtain ⟨-, rfl⟩ := List.cons.inj hp
      exact ⟨[], _, rfl, hrest⟩
    | @take _ c _ _ ih =>
      obtain ⟨before, rest, rfl, hrest⟩ := ih hp
      exact ⟨c :: before, rest, rfl, hrest⟩
    | nil | character | literal => cases hp
  · rintro ⟨before, rest, rfl, h⟩
    induction before with
    | nil => exact .skip h
    | cons c before ih => exact .take ih

theorem accepts_anyCharacter {ts : List Token} {s : List Char} :
    Accepts (.anyCharacter :: ts) s ↔ ∃ c rest, s = c :: rest ∧ Accepts ts rest := by
  constructor
  · rintro (_ | _ | _ | h | _)
    exact ⟨_, _, rfl, h⟩
  · rintro ⟨c, rest, rfl, h⟩
    exact .character h

theorem accepts_literal {c : Char} {ts : List Token} {s : List Char} :
    Accepts (.literal c :: ts) s ↔ ∃ rest, s = c :: rest ∧ Accepts ts rest := by
  constructor
  · rintro (_ | _ | _ | _ | h)
    exact ⟨_, rfl, h⟩
  · rintro ⟨rest, rfl, h⟩
    exact .literal h

theorem accepts_nil {s : List Char} : Accepts [] s ↔ s = [] := by
  constructor
  · rintro ⟨⟩
    rfl
  · rintro rfl
    exact .nil

end ExpiringStore.Pattern

namespace ExpiringStore.Like

open Pattern (Token Accepts tokens)

/-- A well-formed match pattern accepts the texts that its tokens describe. -/
theorem accepts_iff {q : List Char} {ts : List Token} (h : Denotes q ts) (s : List Char) :
    accepts q s = true ↔ Accepts ts s := by
  induction h generalizing s with
  | nil => rw [accepts_nil, Pattern.accepts_nil]
  | any _ ih => simp only [accepts_any, Pattern.accepts_anySequence, ih]
  | one _ ih => simp only [accepts_one, Pattern.accepts_anyCharacter, ih]
  | escaped _ _ ih => simp only [accepts_escaped, Pattern.accepts_literal, ih]
  | plain ordinary _ ih =>
    simp only [accepts_plain ordinary, accepts_escaped, Pattern.accepts_literal, ih]

/-! ## Null characters -/

/-- What a match pattern denotes before its first null character. -/
theorem Denotes.visible {q : List Char} {ts : List Token} (h : Denotes q ts) :
    Denotes (visible q) (ts.takeWhile (· != .literal '\x00')) := by
  induction h with
  | nil => exact .nil
  | any _ ih => exact .any ih
  | one _ ih => exact .one ih
  | @escaped c q ts special _ ih =>
    have hnull : c ≠ '\x00' := by
      rintro rfl
      cases special
    have hc : Like.visible ('\\' :: c :: q) = '\\' :: c :: Like.visible q := by
      simp [Like.visible, hnull]
    rw [hc, List.takeWhile_cons_of_pos (by simpa using hnull)]
    exact .escaped special ih
  | @plain c q ts ordinary _ ih =>
    by_cases hnull : c = '\x00'
    · subst hnull
      exact .nil
    · have hc : Like.visible (c :: q) = c :: Like.visible q := by simp [Like.visible, hnull]
      rw [hc, List.takeWhile_cons_of_pos (by simpa using hnull)]
      exact .plain ordinary ih

end ExpiringStore.Like

namespace ExpiringStore

/-- Does a key pattern describe a key?  What follows a null character takes no part, in the pattern
or in the key. -/
def Pattern.Describes (pattern key : String) : Prop :=
  Pattern.Accepts ((Pattern.tokens pattern.toList).takeWhile (· != .literal '\x00'))
    (Like.visible key.toList)

/-- A key is selected if the pattern describes it. -/
theorem Like.selects_iff (pattern key : String) :
    Like.selects (likeOfGlob pattern) key = true ↔ Pattern.Describes pattern key := by
  unfold Like.selects likeOfGlob
  rw [String.toList_ofList]
  exact Like.accepts_iff (Like.denotes_ofGlob _).visible _

namespace Pattern

/-- The characters that stand for themselves stand in the pattern. -/
theorem mem_of_literal {p : List Char} {c : Char} (h : .literal c ∈ tokens p) : c ∈ p := by
  induction p using tokens.induct with
  | case1 => cases h
  | case2 =>
    obtain rfl := Token.literal.inj (List.mem_singleton.1 h)
    exact List.mem_cons_self
  | case3 d rest ih =>
    rw [tokens] at h
    rcases List.mem_cons.1 h with h | h
    · obtain rfl := Token.literal.inj h
      exact List.mem_cons_of_mem _ List.mem_cons_self
    · exact List.mem_cons_of_mem _ (List.mem_cons_of_mem _ (ih h))
  | case4 d rest h₁ h₂ ih =>
    rw [tokens.eq_4 d rest h₁ h₂] at h
    rcases List.mem_cons.1 h with h | h
    · split at h
      · cases h
      · split at h
        · cases h
        · obtain rfl := Token.literal.inj h
          exact List.mem_cons_self
    · exact List.mem_cons_of_mem _ (ih h)

/-- Without null characters, a pattern describes a key if it accepts it as a whole. -/
theorem describes_iff {pattern key : String} (hpattern : '\x00' ∉ pattern.toList)
    (hkey : '\x00' ∉ key.toList) :
    Describes pattern key ↔ Accepts (tokens pattern.toList) key.toList := by
  have htokens : (tokens pattern.toList).takeWhile (· != .literal '\x00') =
      tokens pattern.toList := by
    refine List.takeWhile_eq_self_iff.2 fun t mem => bne_iff_ne.2 ?_
    rintro rfl
    exact hpattern (mem_of_literal mem)
  have hvisible : Like.visible key.toList = key.toList := by
    refine List.takeWhile_eq_self_iff.2 fun c mem => bne_iff_ne.2 ?_
    rintro rfl
    exact hkey mem
  unfold Describes
  rw [htokens, hvisible]

end Pattern

end ExpiringStore
