import ExpiringStore.Proofs.Codec.Payload
import ExpiringStore.Proofs.Ledger.Basic
import ExpiringStore.Proofs.Table.Reply

/-!
# Tables that agree with a ledger

A table agrees with a ledger, from an instant on, if under each key they hold the same entry or
neither of them holds one that is not over.  What has expired may thus stay in the one and be gone
from the other.  Each transaction keeps the agreement with the change of the ledger that it means.

    Agrees now t m   →   now ≤ later   →   Agrees later t m                       (Agrees.mono)
    Agrees now t m   →   present rows of t are present entries of m               (Agrees.cases_key)
-/

namespace ExpiringStore

variable {τ : Type} [ExactInstant τ]

/-- A row that holds an entry of a ledger. -/
structure Row.Holds (row : Row τ) (e : Ledger.Entry τ) : Prop where
  payload : row.payload = .document e.payload
  ttl : row.ttl = e.ttl.map Instant.ofSeconds
  policy : row.policy = e.policy.word
  anchor : row.lifetime.start = e.anchor
  /-- What is held has been written, and can be read. -/
  decodes : ∃ v, ∀ key, Payload.decode (.ofJson e.payload) none key = .ok v

/-- What a table and a ledger have under one key, from an instant on. -/
inductive SameEntry (now : τ) : Option (Row τ) → Option (Ledger.Entry τ) → Prop
  | held {row : Row τ} {e : Ledger.Entry τ} (holds : row.Holds e) :
      SameEntry now (some row) (some e)
  | ended {row? : Option (Row τ)} {e? : Option (Ledger.Entry τ)}
      (dead : row?.all (·.isExpired now) = true) (past : e?.all (!·.isPresent now) = true) :
      SameEntry now row? e?

def Table.Agrees (now : τ) (t : Table τ) (m : Ledger τ) : Prop :=
  ∀ key, SameEntry now (t.find? key) (m key)

namespace Row.Holds

variable {row : Row τ} {e : Ledger.Entry τ}

/-- A row has expired when the entry that it holds is not present. -/
theorem isExpired_eq (h : row.Holds e) (now : τ) : row.isExpired now = !e.isPresent now := by
  unfold Ledger.Entry.isPresent
  have httl := h.ttl
  cases hn : e.ttl with
  | none =>
    rw [hn] at httl
    rw [Row.isExpired_of_permanent httl]
    rfl
  | some n =>
    rw [hn] at httl
    rw [Row.isExpired_eq_of_ttl httl, h.anchor, Option.all_some, ← decide_not, decide_eq_decide,
      not_le]

theorem ofStored_policy (h : row.Holds e) : Policy.ofStored row.policy = e.policy := by
  rw [h.policy, Policy.ofStored_word]

theorem slides_eq (h : row.Holds e) : row.slides = e.slides := by
  unfold Row.slides Ledger.Entry.slides
  rw [h.ofStored_policy, h.ttl, Option.isSome_map]

theorem value_eq (h : row.Holds e) : row.payload.value = .ofJson e.payload := by
  rw [h.payload]
  rfl

/-- What is left of the lifetime of a live row is what is left of that of its entry. -/
theorem remaining_eq (h : row.Holds e) {now : τ} (hlive : row.isExpired now = false) :
    row.lifetime.remaining now =
      e.ttl.map fun n => e.anchor + Instant.ofSeconds n - now := by
  unfold Lifetime.remaining
  rw [Row.deadline_eq, h.ttl, h.anchor]
  cases hn : e.ttl with
  | none => rfl
  | some n =>
    have httl := h.ttl
    rw [hn] at httl
    rw [Row.isExpired_eq_of_ttl httl, h.anchor, decide_eq_false_iff_not, not_lt] at hlive
    simpa using hlive

theorem of_write {p : Json} {ttl : Option Int} {policy : Policy} {now : τ}
    (hv : ∃ v, ∀ key, Payload.decode (.ofJson p) none key = .ok v) :
    (Operation.rowOf p ttl policy now).Holds ⟨p, ttl, policy, now⟩ where
  payload := rfl
  ttl := rfl
  policy := rfl
  anchor := by
    rw [Row.start_eq]
    split <;> rfl
  decodes := hv

/-- A row that is renewed holds the payload that it held, with the new lifetime. -/
theorem renewed (h : row.Holds e) (ttl : Int) (policy : Policy) (now : τ) :
    (Transaction.renewed row ttl policy now).Holds ⟨e.payload, some ttl, policy, now⟩ where
  payload := h.payload
  ttl := rfl
  policy := rfl
  anchor := by
    rw [Row.start_eq]
    split <;> rfl
  decodes := h.decodes

/-- A sliding row that is touched holds its entry with a new anchor. -/
theorem touched (h : row.Holds e) (hslides : e.slides = true) (now : τ) :
    { row with lastAccessed := some now }.Holds { e with anchor := now } where
  payload := h.payload
  ttl := h.ttl
  policy := h.policy
  anchor := by
    have hsliding : row.policy = Policy.sliding.word := by
      obtain ⟨hpolicy, -⟩ := Bool.and_eq_true_iff.1 hslides
      rw [h.policy, beq_iff_eq.1 hpolicy]
    rw [Row.start_eq, if_pos hsliding]
    rfl
  decodes := h.decodes

end Row.Holds

namespace SameEntry

variable {now : τ} {row? : Option (Row τ)} {e? : Option (Ledger.Entry τ)}

theorem mono (h : SameEntry now row? e?) {later : τ} (hle : now ≤ later) :
    SameEntry later row? e? := by
  cases h with
  | held holds => exact .held holds
  | ended dead past =>
    refine .ended ?_ ?_
    · cases row? with
      | none => rfl
      | some row => exact Row.isExpired_mono hle dead
    · cases e? with
      | none => rfl
      | some e =>
        replace past : (!e.isPresent now) = true := past
        show (!e.isPresent later) = true
        unfold Ledger.Entry.isPresent at past ⊢
        cases hn : e.ttl with
        | none =>
          rw [hn] at past
          cases past
        | some n =>
          rw [hn] at past
          simp only [Option.all_some, Bool.not_eq_true', decide_eq_false_iff_not, not_le] at past ⊢
          exact past.trans_le hle

theorem nothing : SameEntry now (none : Option (Row τ)) (none : Option (Ledger.Entry τ)) :=
  .ended rfl rfl

/-- Either a live row holds a present entry, or there is neither. -/
theorem cases_present (h : SameEntry now row? e?) :
    (∃ row e, row? = some row ∧ e? = some e ∧ row.Holds e ∧ row.isExpired now = false ∧
      e?.filter (·.isPresent now) = some e) ∨
    (row?.all (·.isExpired now) = true ∧ e?.filter (·.isPresent now) = none) := by
  cases h with
  | @held row e holds =>
    have hexpired := holds.isExpired_eq now
    cases hp : e.isPresent now with
    | true =>
      rw [hp] at hexpired
      exact .inl ⟨row, e, rfl, rfl, holds, hexpired, by simp [hp]⟩
    | false =>
      rw [hp] at hexpired
      exact .inr ⟨hexpired, by simp [hp]⟩
  | ended dead past =>
    refine .inr ⟨dead, ?_⟩
    cases e? with
    | none => rfl
    | some e =>
      replace past : (!e.isPresent now) = true := past
      simpa using past

/-- An entry may be dropped from the table when it has expired. -/
theorem sweep (h : SameEntry now row? e?) (gone : Bool) :
    SameEntry now (row?.filter fun row => !(gone && row.isExpired now)) e? := by
  cases h with
  | @held row e holds =>
    cases hd : gone && row.isExpired now with
    | false =>
      rw [Option.filter_some_pos (by simp [hd])]
      exact .held holds
    | true =>
      rw [Option.filter_some_neg (by simp [hd])]
      have hexpired := (Bool.and_eq_true_iff.1 hd).2
      rw [holds.isExpired_eq] at hexpired
      exact .ended rfl hexpired
  | ended dead past =>
    refine .ended ?_ past
    cases row? with
    | none => rfl
    | some row =>
      rw [Option.filter_some]
      split
      · exact dead
      · rfl

end SameEntry

namespace Ledger

omit [ExactInstant τ] in
theorem set_apply (m : Ledger τ) (key k : String) (e : Entry τ) :
    m.set key e k = if k = key then some e else m k := Function.update_apply ..

theorem refresh_of_absent {m : Ledger τ} {now : τ} {key : String}
    (h : m.present now key = none) : m.refresh now key = m := by
  unfold refresh
  rw [h]

theorem refresh_of_still {m : Ledger τ} {now : τ} {key : String} {e : Entry τ}
    (h : m.present now key = some e) (hslides : e.slides = false) : m.refresh now key = m := by
  unfold refresh
  simp only [h, hslides]
  rfl

/-- A batch leaves under a key what its last row for the key holds, or else what was there.  The
induction is on the batch, and what was there changes as its entries are written. -/
theorem writeMany_agrees {now : τ} {ttl : Option Int} {policy : Policy} (key : String)
    {entries : List Arguments.Entry} (hdecodes : ∀ e ∈ entries, ∃ v, ∀ key,
      Payload.decode (.ofJson e.payload) none key = .ok v) {row? : Option (Row τ)} {m : Ledger τ}
    (h : SameEntry now row? (m key)) :
    SameEntry now
      ((Transaction.lastRow key (entries.map fun e =>
        (e.key.text, Operation.rowOf e.payload ttl policy now))).or row?)
      (entries.foldl (fun m e => m.set e.key.text ⟨e.payload, ttl, policy, now⟩) m key) := by
  induction entries generalizing row? m with
  | nil => exact h
  | cons e rest ih =>
    rw [List.map_cons, Transaction.lastRow, Option.or_assoc, List.foldl_cons]
    refine ih (fun e' mem => hdecodes e' (List.mem_cons_of_mem _ mem)) ?_
    rw [set_apply]
    by_cases hk : e.key.text = key
    · rw [if_pos hk, if_pos hk.symm]
      exact .held (.of_write (hdecodes e List.mem_cons_self))
    · rw [if_neg hk, if_neg (Ne.symm hk)]
      exact h

end Ledger

namespace Table.Agrees

variable {now : τ} {t t' : Table τ} {m : Ledger τ}

theorem mono (h : t.Agrees now m) {later : τ} (hle : now ≤ later) : t.Agrees later m :=
  fun key => (h key).mono hle

theorem empty (now : τ) : (Table.empty : Table τ).Agrees now Ledger.empty := fun _ => .nothing

/-! ## What is present -/

theorem present_of_live (h : t.Agrees now m) {key : String} {row : Row τ}
    (hfound : t.find? key = some row) (hlive : row.isExpired now = false) :
    ∃ e, m key = some e ∧ row.Holds e ∧ m.present now key = some e := by
  rcases (h key).cases_present with ⟨row', e, hrow, he, holds, -, hpresent⟩ | ⟨hdead, -⟩
  · rw [hfound] at hrow
    obtain rfl := Option.some.inj hrow
    exact ⟨e, he, holds, hpresent⟩
  · rw [hfound, Option.all_some, hlive] at hdead
    cases hdead

theorem absent (h : t.Agrees now m) {key : String}
    (hdead : (t.find? key).all (·.isExpired now) = true) : m.present now key = none := by
  rcases (h key).cases_present with ⟨row, e, hrow, -, -, hlive, -⟩ | ⟨-, hnone⟩
  · rw [hrow, Option.all_some, hlive] at hdead
    cases hdead
  · exact hnone

theorem live_of_present (h : t.Agrees now m) {key : String} {e : Ledger.Entry τ}
    (hpresent : m.present now key = some e) :
    ∃ row, t.find? key = some row ∧ row.Holds e ∧ row.isExpired now = false := by
  rcases (h key).cases_present with ⟨row, e', hrow, -, holds, hlive, hpresent'⟩ | ⟨-, hnone⟩
  · obtain rfl := Option.some.inj (hpresent'.symm.trans hpresent)
    exact ⟨row, hrow, holds, hlive⟩
  · cases hnone.symm.trans hpresent

theorem isSome_present (h : t.Agrees now m) (key : String) :
    (m.present now key).isSome = (t.find? key).any fun row => !row.isExpired now := by
  cases hp : m.present now key with
  | some e =>
    obtain ⟨row, hfound, -, hlive⟩ := h.live_of_present hp
    rw [hfound, Option.any_some, hlive]
    rfl
  | none =>
    cases hf : t.find? key with
    | none => rfl
    | some row =>
      cases hd : row.isExpired now with
      | true => simp [hd]
      | false =>
        obtain ⟨e, -, -, hpresent⟩ := h.present_of_live hf hd
        cases hpresent.symm.trans hp

/-! ## Transactions -/

/-- To see that a commit agrees with a ledger, see to the row of each key. -/
theorem commit {m' : Ledger τ} {a : Transaction τ} {r : a.Reply}
    (hdone : a.commit t = .ok (r, t'))
    (hkey : ∀ key, SameEntry now (a.onRow key (t.find? key)) (m' key)) : t'.Agrees now m' := by
  intro key
  rw [Transaction.find?_commit hdone key]
  exact hkey key

theorem write (h : t.Agrees now m) {w : Written}
    (hdecodes : ∃ v, ∀ key, Payload.decode (.ofJson w.payload) none key = .ok v)
    (hdone : (Transaction.write [(w.key.text, w.row now)]).commit t = .ok ((), t')) :
    t'.Agrees now (m.write now w) := by
  refine commit hdone fun key => ?_
  show SameEntry now ((Option.or none (if w.key.text = key then some (w.row now) else none)).or _) _
  rw [Ledger.write, Ledger.set_apply, Option.none_or]
  by_cases hk : w.key.text = key
  · rw [if_pos hk, if_pos hk.symm]
    exact .held (.of_write hdecodes)
  · rw [if_neg hk, if_neg (Ne.symm hk)]
    exact h key

theorem writeMany (h : t.Agrees now m) {w : WrittenMany} (hdecodes : ∀ e ∈ w.entries, ∃ v, ∀ key,
      Payload.decode (.ofJson e.payload) none key = .ok v)
    (hdone : (Transaction.write (w.rows now)).commit t = .ok ((), t')) :
    t'.Agrees now (m.writeMany now w) :=
  commit hdone fun key => Ledger.writeMany_agrees key hdecodes (h key)

/-- What a conditional insertion answers is whether there is a present entry, and its row. -/
theorem writeIfAbsent (h : t.Agrees now m) {w : Written}
    (hdecodes : ∃ v, ∀ key, Payload.decode (.ofJson w.payload) none key = .ok v)
    {r : Insertion τ}
    (hdone : (Transaction.writeIfAbsent w.key.text (w.row now) now).commit t = .ok (r, t')) :
    t'.Agrees now (m.writeIfAbsent now w) ∧
      ((r = .inserted ∧ m.present now w.key.text = none) ∨
        ∃ row e, r = .present row ∧ row.Holds e ∧ m.present now w.key.text = some e) := by
  have hrow : ∀ key,
      (Transaction.writeIfAbsent w.key.text (w.row now) now).onRow key (t.find? key) =
      if key = w.key.text ∧ (t.find? key).all (·.isExpired now) then some (w.row now)
        else t.find? key := fun key => rfl
  rcases Transaction.commit_writeIfAbsent hdone with ⟨rfl, hall⟩ | ⟨row, rfl, hfound, hlive⟩
  · have habsent := h.absent hall
    have hwrites : m.writeIfAbsent now w = m.write now w := by
      unfold Ledger.writeIfAbsent
      rw [habsent]
      rfl
    refine ⟨commit hdone fun key => ?_, .inl ⟨rfl, habsent⟩⟩
    rw [hrow, hwrites, Ledger.write, Ledger.set_apply]
    by_cases hk : key = w.key.text
    · rw [if_pos hk, if_pos ⟨hk, hk ▸ hall⟩]
      exact .held (.of_write hdecodes)
    · rw [if_neg hk, if_neg fun hkey => hk hkey.1]
      exact h key
  · obtain ⟨e, -, holds, hpresent⟩ := h.present_of_live hfound hlive
    have hkeeps : m.writeIfAbsent now w = m := by
      unfold Ledger.writeIfAbsent
      rw [hpresent]
      rfl
    refine ⟨commit hdone fun key => ?_, .inr ⟨row, e, rfl, holds, hpresent⟩⟩
    have hnot : ¬ (key = w.key.text ∧ (t.find? key).all (·.isExpired now) = true) := by
      rintro ⟨rfl, hall⟩
      rw [hfound, Option.all_some, hlive] at hall
      cases hall
    rw [hrow, if_neg hnot, hkeeps]
    exact h key

theorem renew (h : t.Agrees now m) {w : Renewal} {r : Bool}
    (hdone : (Transaction.extend w.key.text w.ttl w.policy now).commit t = .ok (r, t')) :
    t'.Agrees now (m.renew now w) ∧ r = (m.present now w.key.text).isSome := by
  refine ⟨commit hdone fun key => ?_, ?_⟩
  · show SameEntry now ((t.find? key).map fun row => if key = w.key.text ∧ row.isExpired now = false
      then Transaction.renewed row w.ttl w.policy now else row) _
    unfold Ledger.renew
    cases hp : m.present now w.key.text with
    | none =>
      -- Nothing is present, so no row is renewed.
      have hsame : (t.find? key).map (fun row => if key = w.key.text ∧ row.isExpired now = false
          then Transaction.renewed row w.ttl w.policy now else row) = t.find? key := by
        cases hf : t.find? key with
        | none => rfl
        | some row =>
          have hnot : ¬ (key = w.key.text ∧ row.isExpired now = false) := by
            rintro ⟨rfl, hlive⟩
            obtain ⟨e, -, -, hpresent⟩ := h.present_of_live hf hlive
            cases hpresent.symm.trans hp
          rw [Option.map_some, if_neg hnot]
      rw [hsame]
      exact h key
    | some e =>
      obtain ⟨row, hfound, holds, hlive⟩ := h.live_of_present hp
      show SameEntry now _ (m.set w.key.text _ key)
      rw [Ledger.set_apply]
      by_cases hk : key = w.key.text
      · rw [if_pos hk, hk, hfound, Option.map_some, if_pos ⟨rfl, hlive⟩]
        exact .held (holds.renewed w.ttl w.policy now)
      · rw [if_neg hk]
        simpa [hk] using h key
  · rw [Transaction.reply_extend hdone, h.isSome_present]

theorem touch (h : t.Agrees now m) {key : String} {row : Row τ} (hfound : t.find? key = some row)
    (hlive : row.isExpired now = false) (hslides : row.slides = true)
    (hdone : (Transaction.touch key now).commit t = .ok ((), t')) :
    t'.Agrees now (m.refresh now key) := by
  obtain ⟨e, he, holds, hpresent⟩ := h.present_of_live hfound hlive
  have hslides' : e.slides = true := holds.slides_eq ▸ hslides
  refine commit hdone fun k => ?_
  show SameEntry now ((t.find? k).map fun row =>
    if k = key then { row with lastAccessed := some now } else row) _
  unfold Ledger.refresh
  simp only [hpresent, hslides', if_true]
  rw [Ledger.set_apply]
  by_cases hk : k = key
  · rw [if_pos hk, hk, hfound, Option.map_some, if_pos rfl]
    exact .held (holds.touched hslides' now)
  · rw [if_neg hk]
    simpa [hk] using h k

/-- A removal on request removes the same keys from both. -/
theorem remove (h : t.Agrees now m) (gone : String → Bool) {a : Transaction τ} {r : a.Reply}
    (hdone : a.commit t = .ok (r, t'))
    (hrow : ∀ key, a.onRow key (t.find? key) = (t.find? key).filter fun _ => !gone key) :
    t'.Agrees now (m.without gone) := by
  refine commit hdone fun key => ?_
  rw [hrow key, Ledger.without]
  cases hg : gone key with
  | true =>
    have hnone : ((t.find? key).filter fun _ => !true) = none := by simp
    rw [if_pos rfl, hnone]
    exact .nothing
  | false =>
    have hsame : ((t.find? key).filter fun _ => !false) = t.find? key := by
      cases t.find? key <;> rfl
    rw [if_neg (by simp), hsame]
    exact h key

/-- Removing what has expired leaves the ledger as it is. -/
theorem sweep (h : t.Agrees now m) (gone : String → Bool) {a : Transaction τ} {r : a.Reply}
    (hdone : a.commit t = .ok (r, t')) (hrow : ∀ key, a.onRow key (t.find? key) =
      (t.find? key).filter fun row => !(gone key && row.isExpired now)) : t'.Agrees now m := by
  refine commit hdone fun key => ?_
  rw [hrow key]
  exact (h key).sweep (gone key)

end Table.Agrees

end ExpiringStore
