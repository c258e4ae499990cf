import ExpiringStore.Proofs.Desk.Refused
import ExpiringStore.Proofs.Desk.Sweeping
import ExpiringStore.Proofs.Desk.Views
import ExpiringStore.Proofs.Pattern.Exact
import ExpiringStore.Proofs.Table.Turnover

/-!
# Keys by pattern

To list or to remove keys by a pattern is to list or to remove the keys that it describes, whatever
the table keeps besides.  A pattern that is too long for one of the keys is refused, and nothing is
changed.

    no key overtaxes the pattern   →   what is described is listed, and removed
    a key overtaxes the pattern    →   both calls fail, and change nothing
                                                                               (patterns_are_exact)
-/

namespace ExpiringStore

variable {τ σ : Type}

namespace Transaction

theorem keysWhere_increasing (t : Table τ) (condition : String → Row τ → Bool) :
    (keysWhere t condition).Pairwise (· < ·) :=
  t.keys_increasing.sublist (List.filter_sublist.map _)

/-- A pattern can be matched if it is not too long for any key. -/
theorem matchable_of_untaxed {t : Table τ} {pattern : String}
    (untaxed : ∀ key row, t.find? key = some row → Like.overtaxes pattern key = false) :
    matchable t pattern = .ok () := by
  have hnone : (t.select fun k _ => Like.overtaxes pattern k) = [] := by
    refine List.filter_eq_nil_iff.2 fun p mem => ?_
    exact ne_true_of_eq_false (untaxed p.1 p.2 ((Table.mem_rows_iff ..).1 mem))
  unfold matchable
  rw [hnone]
  rfl

variable [OrderedInstant τ] {t t' : Table τ}

theorem commit_liveKeys {pattern : String} (now : τ) (h : matchable t pattern = .ok ()) :
    ∃ keys t', commit t (.liveKeys pattern now) = .ok (keys, t') := by
  have hfirst : firstOn t (.liveKeys pattern now) = reading t ((matchable t pattern).map _) := rfl
  rw [h] at hfirst
  exact commit_reading hfirst rfl

theorem commit_removeMatching {pattern : String} (h : matchable t pattern = .ok ()) :
    ∃ keys t', commit t (.removeMatching pattern) = .ok (keys, t') := by
  have hfirst : firstOn t (.removeMatching pattern) =
      changing (keysWhere t fun k _ => Like.selects pattern k)
        (removeWhere t fun k _ => Like.selects pattern k) := by
    simp only [firstOn, h]
    rfl
  exact commit_changing hfirst

theorem reply_removeMatching {pattern : String} {removed : List String}
    (h : commit t (.removeMatching pattern) = .ok (removed, t')) :
    removed = (keysWhere t fun k _ => Like.selects pattern k) ∧ matchable t pattern = .ok () := by
  obtain ⟨b, hb, -, ha⟩ := commit_ok h
  cases hm : matchable t pattern with
  | error f => simp [firstOn, hm] at hb
  | ok u =>
    simp only [firstOn, hm] at hb
    obtain rfl := Except.ok.inj hb
    exact ⟨(Except.ok.inj ha).symm, rfl⟩

end Transaction

namespace Station

variable [OrderedInstant τ] [Delay τ] (h : Station τ σ) (c : Config τ) (s : σ)

/-- To list and to remove by a pattern is about the keys that it describes: listed are those that
are live, and removed are all of them. -/
structure Selecting (v : Value) (pattern : String) : Prop where
  listed : ∃ keys, (h.answer c (.getKeys v) s).1 = .ok (.texts keys) ∧ keys.Pairwise (· < ·) ∧
    ∀ key, key ∈ keys ↔ Pattern.Describes pattern key ∧ ∃ row,
      (h.desk s).table.find? key = some row ∧ row.isExpired (h.clock s) = false
  kept : (h.desk (h.answer c (.getKeys v) s).2).table = (h.desk s).table
  removed (key : String) (row : Row τ) :
    (h.desk (h.answer c (.evictByPattern v) s).2).table.find? key = some row ↔
      (h.desk s).table.find? key = some row ∧ ¬ Pattern.Describes pattern key
  counted : ∃ keys : List String,
    (h.answer c (.evictByPattern v) s).1 = .ok (.count keys.length) ∧ keys.Pairwise (· < ·) ∧
      ∀ key, key ∈ keys ↔ Pattern.Describes pattern key ∧
        ∃ row, (h.desk s).table.find? key = some row

/-- A pattern that is too long for a key fails both calls, and changes nothing. -/
structure Refusing (v : Value) : Prop where
  listed : ∃ f, (h.answer c (.getKeys v) s).1 = .error f ∧
    h.desk (h.answer c (.getKeys v) s).2 = h.desk s
  removed : ∃ f, (h.answer c (.evictByPattern v) s).1 = .error f ∧
    h.desk (h.answer c (.evictByPattern v) s).2 = h.desk s

variable {h c s}

/-- The account of a listing, unless the pattern is too long for a key. -/
theorem lists_or_refused (obliging : h.Obliging c) {v : Value} {g : String}
    (given : Arguments.pattern v "get_keys" = .ok g) :
    Call.Lists g (h.trail c (.getKeys v) s) (h.answer c (.getKeys v) s).1 ∨
      (∃ f, (h.answer c (.getKeys v) s).1 = .error f ∧
        h.desk (h.answer c (.getKeys v) s).2 = h.desk s) ∧
      Transaction.matchable (h.desk s).table (likeOfGlob g) ≠ .ok () := by
  rcases accounts_or_refused obliging (.getKeys v) (s := s) with
    haccounts | ⟨f, f', a, hf, hd, made, hrefused⟩
  · left
    have hvetted : Call.Vetted (Arguments.pattern v "get_keys") _ _ _ := haccounts
    exact hvetted.rest given
  · refine .inr ⟨⟨f, hf, hd⟩, fun able => ?_⟩
    cases made with
    | getKeys given' read =>
      obtain rfl := Except.ok.inj (given.symm.trans given')
      obtain ⟨keys, t', hdone⟩ := Transaction.commit_liveKeys _ able
      cases hdone.symm.trans hrefused

/-- The account of a removal by a pattern, unless the pattern is too long for a key. -/
theorem removes_or_refused (obliging : h.Obliging c) {v : Value} {g : String}
    (given : Arguments.pattern v "evict_by_pattern" = .ok g) :
    (∃ removed t', (Transaction.removeMatching (likeOfGlob g)).commit (h.desk s).table =
        .ok (removed, t') ∧ (h.desk (h.answer c (.evictByPattern v) s).2).table = t' ∧
        (h.answer c (.evictByPattern v) s).1 = .ok (.count removed.length)) ∨
      (∃ f, (h.answer c (.evictByPattern v) s).1 = .error f ∧
        h.desk (h.answer c (.evictByPattern v) s).2 = h.desk s) ∧
      Transaction.matchable (h.desk s).table (likeOfGlob g) ≠ .ok () := by
  rcases accounts_or_refused obliging (.evictByPattern v) (s := s) with
    haccounts | ⟨f, f', a, hf, hd, made, hrefused⟩
  · left
    have hvetted : Call.Vetted (Arguments.pattern v "evict_by_pattern") _ _ _ := haccounts
    obtain ⟨removed, told, hremoved, hmarks, hr⟩ := hvetted.rest given
    have hc := carried_anyway (h := h) (c := c) (s := s) (.evictByPattern v)
    rw [hmarks] at hc
    obtain ⟨t', hdone, hc⟩ := hc.committed
    exact ⟨removed, t', hdone, (hremoved.counted hc).1, hr⟩
  · refine .inr ⟨⟨f, hf, hd⟩, fun able => ?_⟩
    cases made with
    | evictByPattern given' =>
      obtain rfl := Except.ok.inj (given.symm.trans given')
      obtain ⟨removed, t', hdone⟩ := Transaction.commit_removeMatching able
      cases hdone.symm.trans hrefused

theorem selecting_of_untaxed (obliging : h.Obliging c) {v : Value} {g : String}
    (listing : Arguments.pattern v "get_keys" = .ok g)
    (removing : Arguments.pattern v "evict_by_pattern" = .ok g)
    (able : Transaction.matchable (h.desk s).table (likeOfGlob g) = .ok ()) :
    h.Selecting c s v g := by
  have hlists := (lists_or_refused obliging listing (s := s)).resolve_right fun h => h.2 able
  obtain ⟨hstill, hkeys⟩ := Call.lists_live (carried_anyway (.getKeys v)) hlists
  obtain ⟨removed, t', hdone, htable, hcount⟩ :=
    (removes_or_refused obliging removing (s := s)).resolve_right fun h => h.2 able
  obtain ⟨hremoved, -⟩ := Transaction.reply_removeMatching hdone
  constructor
  case listed =>
    refine ⟨_, hkeys, Transaction.keysWhere_increasing _ _, fun key => ?_⟩
    rw [Transaction.mem_keysWhere, ← Like.selects_iff]
    simp only [Table.find?_live_eq_some]
    constructor
    · rintro ⟨row, live, hselects⟩
      exact ⟨hselects, row, live⟩
    · rintro ⟨hselects, row, live⟩
      exact ⟨row, live, hselects⟩
  case kept => rw [hstill]
  case removed =>
    intro key row
    rw [htable, Transaction.find?_commit hdone, ← Like.selects_iff]
    show ((h.desk s).table.find? key).filter (fun _ => !Like.selects (likeOfGlob g) key) = _ ↔ _
    rw [Option.filter_eq_some_iff, Bool.not_eq_true', Bool.not_eq_true]
  case counted =>
    refine ⟨removed, hcount, hremoved ▸ Transaction.keysWhere_increasing _ _, fun key => ?_⟩
    rw [hremoved, Transaction.mem_keysWhere, ← Like.selects_iff]
    constructor
    · rintro ⟨row, found, hselects⟩
      exact ⟨hselects, row, found⟩
    · rintro ⟨hselects, row, found⟩
      exact ⟨row, found, hselects⟩

theorem refusing_of_taxed (obliging : h.Obliging c) {v : Value} {g : String}
    (listing : Arguments.pattern v "get_keys" = .ok g)
    (removing : Arguments.pattern v "evict_by_pattern" = .ok g) {key : String} {row : Row τ}
    (found : (h.desk s).table.find? key = some row)
    (taxed : Like.overtaxes (likeOfGlob g) key = true) : h.Refusing c s v := by
  constructor
  case listed =>
    rcases lists_or_refused obliging listing (s := s) with ⟨now, keys, hmarks, -⟩ | ⟨hrefused, -⟩
    · have hc := carried_anyway (h := h) (c := c) (s := s) (.getKeys v)
      rw [hmarks] at hc
      obtain ⟨-, hc⟩ := hc.read
      obtain ⟨t', hdone, -⟩ := hc.committed
      cases taxed.symm.trans (Transaction.untaxed_of_liveKeys hdone found)
    · exact hrefused
  case removed =>
    rcases removes_or_refused obliging removing (s := s) with
      ⟨removed, t', hdone, -⟩ | ⟨hrefused, -⟩
    · obtain ⟨-, able⟩ := Transaction.reply_removeMatching hdone
      cases taxed.symm.trans (Transaction.untaxed_of_matchable able found)
    · exact hrefused

end Station

/-- A text that is not empty is a pattern, for every operation. -/
theorem Arguments.pattern_of_text {v : Value} {g : String} (text : v.text? = some g)
    (filled : g.isEmpty = false) (operation : String) : Arguments.pattern v operation = .ok g := by
  unfold Arguments.pattern
  simp only [text, filled, Bool.false_eq_true, if_false]

/-- Matching by pattern is exact.  The match pattern of a key pattern is well-formed, and accepts
the texts that the key pattern describes.  So what is listed and removed by a pattern is what it
describes, unless it is too long for one of the keys, and then nothing is. -/
theorem patterns_are_exact :
    (∀ p : List Char, Like.isWellFormed (Like.ofGlob p) = true) ∧
    (∀ p text : List Char,
      Like.accepts (Like.ofGlob p) text = true ↔ Pattern.Accepts (Pattern.tokens p) text) ∧
    (∀ pattern key : String, '\x00' ∉ pattern.toList → '\x00' ∉ key.toList →
      (Pattern.Describes pattern key ↔
        Pattern.Accepts (Pattern.tokens pattern.toList) key.toList)) ∧
    ∀ {τ σ : Type} [OrderedInstant τ] [Delay τ] (h : Station τ σ) (c : Config τ) (s : σ) (v : Value)
      (g : String), h.Obliging c → v.text? = some g → g.isEmpty = false →
      ((∀ key row, (h.desk s).table.find? key = some row →
          Like.overtaxes (likeOfGlob g) key = false) → h.Selecting c s v g) ∧
      ((∃ key row, (h.desk s).table.find? key = some row ∧
          Like.overtaxes (likeOfGlob g) key = true) → h.Refusing c s v) := by
  refine ⟨fun p => (Like.denotes_ofGlob p).isWellFormed,
    fun p text => Like.accepts_iff (Like.denotes_ofGlob p) text,
    fun pattern key => Pattern.describes_iff, ?_⟩
  intro τ σ _ _ h c s v g obliging text given
  have haccepted := Arguments.pattern_of_text text given
  constructor
  · intro untaxed
    exact Station.selecting_of_untaxed obliging (haccepted _) (haccepted _)
      (Transaction.matchable_of_untaxed untaxed)
  · rintro ⟨key, row, found, taxed⟩
    exact Station.refusing_of_taxed obliging (haccepted _) (haccepted _) found taxed

namespace Station

/-- A share and a price, of which the price has expired by 15. -/
def priced : Table Int :=
  (Table.empty.insert "50%" (written (.document (.object [("v", .int 1)])) none)).insert "500"
    (written (.document (.object [("v", .int 2)])) (some 10))

/-- An escaped percent sign stands for itself. -/
theorem patterns_are_exact_priced :
    (plain false).Selecting .plain (15, opened priced) (.str "50\\%") "50\\%" ∧
    ((plain false).answer .plain (.getKeys (.str "50\\%")) (15, opened priced)).1 =
      .ok (.texts ["50%"]) ∧
    ((plain false).answer .plain (.evictByPattern (.str "50?")) (15, opened priced)).1 =
      .ok (.count 2) := by
  obtain ⟨-, -, -, hcalls⟩ := patterns_are_exact
  refine ⟨(hcalls (plain false) .plain (15, opened priced) (.str "50\\%") "50\\%"
    (obliging_plain false .plain) rfl rfl).1 fun key row found => ?_, by rfl, by rfl⟩
  unfold Like.overtaxes
  rw [decide_eq_false (by decide), Bool.false_and]

/-- A number under a key with a null character. -/
def nulled : Table Int :=
  Table.empty.insert "a\x00b" (written (.document (.object [("v", .int 1)])) none)

theorem tokens_stars (n : Nat) :
    Pattern.tokens (stars n).toList = List.replicate n .anySequence := by
  rw [stars, String.toList_ofList]
  induction n with
  | zero => rfl
  | succ n ih =>
    rw [List.replicate_succ, List.replicate_succ, Pattern.tokens, ih]
    · rfl
    all_goals simp

/-- Stars describe every text. -/
theorem accepts_stars (n : Nat) (text : List Char) :
    Pattern.Accepts (Pattern.tokens (stars (n + 1)).toList) text := by
  rw [tokens_stars]
  induction n with
  | zero =>
    exact Pattern.accepts_anySequence.2 ⟨text, [], (List.append_nil _).symm, .nil⟩
  | succ n ih => exact .skip ih

/-- A key is listed that the pattern does not describe as a whole, and none is listed by a pattern
of too many stars, which describes every key. -/
theorem listed_inexactly :
    ((plain false).answer .plain (.getKeys (.str "a")) (0, opened nulled)).1 =
      .ok (.texts ["a\x00b"]) ∧
    ¬ Pattern.Accepts (Pattern.tokens "a".toList) "a\x00b".toList ∧
    (∃ f, ((plain false).answer .plain (.getKeys (.str (stars 50001))) (0, opened nulled)).1 =
      .error f) ∧
    Pattern.Accepts (Pattern.tokens (stars 50001).toList) "a\x00b".toList := by
  refine ⟨by rfl, ?_, ?_, accepts_stars 50000 _⟩
  · rw [← Like.accepts_iff (Like.denotes_ofGlob _)]
    decide
  · obtain ⟨f, hf, -⟩ := (refusing_of_taxed (obliging_plain false .plain) (s := (0, opened nulled))
      (pattern_stars 50000 _) (pattern_stars 50000 _) (Table.find?_insert_self ..)
      (overtaxes_stars (by decide) _)).listed
    exact ⟨f, hf⟩

end Station

end ExpiringStore
