import ExpiringStore.Proofs.Codec.Payload
import ExpiringStore.Proofs.Desk.Basic
import ExpiringStore.Proofs.Table.Reply

/-!
# Calls that fail

A call that fails has changed nothing, neither the table nor the counters nor the counted size, and
no listener was told of anything.  Only a lookup may fail having changed something: it refreshes a
sliding entry before it decodes the payload, and the refresh stays when the payload is not what was
asked for.  A call that is refused has not asked for anything.

    call fails with f   →   the desk is as it was   ↔   not InVain     (failure_changes_nothing_iff)
-/

namespace ExpiringStore

variable {τ σ : Type}

namespace Payload

/-- What cannot be decoded is not what was asked for. -/
theorem not_isRefusal_of_decode {payload : Value} {target : Option Target} {key : Option Key}
    {f : Failure} (h : decode payload target key = .error f) : f.isRefusal = false := by
  obtain ⟨cause, rfl, rfl | ⟨type, errors, rfl⟩⟩ := decode_error h
  · rfl
  · rfl

end Payload

variable [Instant τ]

/-! ## Rows that are touched -/

namespace Transaction

theorem commit_touch_found {t t' : Table τ} {key : String} {now : τ} {row : Row τ}
    (hfound : t.find? key = some row) (h : (touch key now).commit t = .ok ((), t')) :
    t'.find? key = some { row with lastAccessed := Instant.stored now } := by
  obtain ⟨b, hb, rfl, -⟩ := commit_ok h
  obtain rfl := Except.ok.inj hb
  show (t.map _).find? key = _
  rw [Table.find?_map, hfound]
  simp

/-- Touching a row that was last accessed at that instant leaves the table as it is. -/
theorem commit_touch_same {t t' : Table τ} {key : String} {now : τ} {row : Row τ}
    (hfound : t.find? key = some row) (hsame : row.lastAccessed = Instant.stored now)
    (h : (touch key now).commit t = .ok ((), t')) : t' = t := by
  refine Table.eq_of_find? fun k => ?_
  by_cases heq : k = key
  · rw [heq, commit_touch_found hfound h, hfound, ← hsame]
  · obtain ⟨b, hb, rfl, -⟩ := commit_ok h
    obtain rfl := Except.ok.inj hb
    show (t.map _).find? k = _
    rw [Table.find?_map]
    simp [heq]

end Transaction

section
variable {listens : Desk τ → Desk τ → Prop} {d d' : Desk τ}

/-- What a spoiled lookup does: it finds a row, and touches it. -/
theorem Does.touched {k : Key} {row : Row τ} {now : τ}
    (hdoes : Does listens [.committed (.fetch k.text) (some row), .read now,
      .committed (.touch k.text now) ()] d d') :
    d.table.find? k.text = some row ∧
      ∃ t, (Transaction.touch k.text now).commit d.table = .ok ((), t) ∧
        d' = { d with table := t } := by
  obtain ⟨d₁, ⟨t₁, hfetch, rfl⟩, d₂, rfl, d₃, ⟨t₃, htouch, rfl⟩, rfl⟩ := hdoes
  obtain rfl : t₁ = d.table := Transaction.commit_quiet rfl hfetch
  exact ⟨(Transaction.reply_fetch hfetch).symm, t₃, htouch, rfl⟩

end

/-! ## How calls fail -/

namespace Call

theorem not_isRefusal_of_liveValues {target : Option Target} {now : τ}
    {rows : List (String × Row τ)} {f : Failure} (h : liveValues target now rows = .error f) :
    f.isRefusal = false := by
  induction rows with
  | nil => cases h
  | cons p rest ih =>
    obtain ⟨k, row⟩ := p
    unfold liveValues at h
    split at h
    · exact ih h
    · cases hv : Payload.decode row.payload.value target (some (.plain k)) with
      | error g =>
        rw [hv] at h
        obtain rfl := Except.error.inj h
        exact Payload.not_isRefusal_of_decode hv
      | ok v =>
        rw [hv] at h
        cases hrest : liveValues target now rest with
        | error g =>
          rw [hrest] at h
          obtain rfl := Except.error.inj h
          exact ih hrest
        | ok found => rw [hrest] at h; cases h

/-- A lookup has refreshed a live entry and cannot decode its payload. -/
def Spoils (call : Call) (t : Trail τ) (f : Failure) : Prop :=
  ∃ key target k row now, call = .get key true target ∧ Arguments.key key "get" = .ok k ∧
    row.slides = true ∧ row.isExpired now = false ∧
    Payload.decode row.payload.value target (some k) = .error f ∧
    t.marks = [.committed (.fetch k.text) (some row), .read now, .committed (.touch k.text now) ()]

/-- A failure that comes with idle marks, and with none at all if it is a refusal. -/
def Harmless (t : Trail τ) (f : Failure) : Prop :=
  t.marks.all Mark.isIdle = true ∧ (f.isRefusal = true → t.asked = false)

omit [Instant τ] in
theorem harmless_of_marks {t : Trail τ} {f : Failure} {ms : List (Mark τ)} (ht : t.marks = ms)
    (idle : ms.all Mark.isIdle = true) (mild : f.isRefusal = false) : Harmless t f := by
  refine ⟨by rw [ht]; exact idle, fun h => ?_⟩
  cases mild.symm.trans h

omit [Instant τ] in
/-- Refused arguments are harmless; what remains is what follows checked ones. -/
theorem Vetted.harmless {α : Type} {x : Except Failure α} {t : Trail τ} {f : Failure}
    {rest : α → Prop} {P : Prop} (h : Vetted x t (.error f) rest)
    (hrest : ∀ a, x = .ok a → rest a → Harmless t f ∨ P) : Harmless t f ∨ P := by
  cases x with
  | ok a => exact hrest a rfl h
  | error g =>
    obtain ⟨rfl, -⟩ := h
    exact .inl ⟨rfl, fun _ => rfl⟩

theorem LooksUp.failure_cases {k : Key} {refresh : Bool} {target : Option Target} {t : Trail τ}
    {f : Failure} (h : LooksUp k refresh target t (.error f)) :
    Harmless t f ∨ (refresh = true ∧ ∃ row now, row.slides = true ∧ row.isExpired now = false ∧
      Payload.decode row.payload.value target (some k) = .error f ∧
      t.marks =
        [.committed (.fetch k.text) (some row), .read now, .committed (.touch k.text now) ()]) := by
  cases h with
  | @undecodable row now touched _ live touch fails marks =>
    have mild := Payload.not_isRefusal_of_decode fails
    cases touch with
    | still | missed => exact .inl (harmless_of_marks marks rfl mild)
    | moved hmoves =>
      obtain ⟨rfl, slides⟩ := Bool.and_eq_true_iff.1 hmoves
      exact .inr ⟨rfl, row, now, slides, live, fails, marks⟩

theorem harmless_of_inserts {w : Written} {value : Value} {left : Nat} {t : Trail τ}
    {f : Failure} {ms before : List (Mark τ)} (h : Inserts w value left ms (.error f))
    (ht : t.marks = before ++ ms) (idle : before.all Mark.isIdle = true) : Harmless t f := by
  generalize hr : (.error f : Except Failure Answer) = r at h
  induction h generalizing before with
  | unsettled =>
    obtain rfl := Except.error.inj hr
    exact harmless_of_marks ht (by simpa using idle) rfl
  | inserted => cases hr
  | present left now row =>
    refine harmless_of_marks ht (by simp [idle, Mark.isIdle, Transaction.isQuiet]) ?_
    cases hv : Payload.decode row.payload.value none (some w.key) with
    | ok v => rw [hv] at hr; cases hr
    | error g =>
      rw [hv] at hr
      obtain rfl := Except.error.inj hr
      exact Payload.not_isRefusal_of_decode hv
  | @neither left now ms r rest ih =>
    let tried : Transaction τ := .writeIfAbsent w.key.text (w.row now) now
    have hmore : t.marks = (before ++ [.read now, .committed tried .neither]) ++ ms := by
      simpa using ht
    exact ih hmore (by simp [idle, tried, Mark.isIdle, Transaction.isQuiet]) hr

/-- Of the calls that fail for other reasons than trouble with the storage, only lookups may have
done something. -/
theorem Accounts.failure_cases {c : Config τ} {call : Call} {t : Trail τ} {f : Failure}
    (h : Accounts c call t (.error f)) : Harmless t f ∨ Spoils call t f := by
  cases call with
  | get key refresh target =>
    refine Vetted.harmless h fun k hk hrest => hrest.failure_cases.imp_right ?_
    rintro ⟨rfl, row, now, slides, live, fails, marks⟩
    exact ⟨key, target, k, row, now, rfl, hk, slides, live, fails, marks⟩
  | containsKey key =>
    refine Vetted.harmless h fun k _ hrest => ?_
    obtain ⟨_, _, _, hr⟩ := hrest
    cases hr
  | getAll keys target =>
    refine Vetted.harmless h fun ks _ hrest => ?_
    split at hrest
    · cases hrest.2
    · obtain ⟨rows, now, hrest⟩ := hrest
      split at hrest
      · cases hrest.1
      · next g hg =>
        obtain ⟨hr, marks⟩ := hrest
        obtain rfl := Except.error.inj hr
        exact .inl (harmless_of_marks marks rfl (not_isRefusal_of_liveValues hg))
  | getKeys pattern =>
    refine Vetted.harmless h fun g _ hrest => ?_
    obtain ⟨_, _, _, hr⟩ := hrest
    cases hr
  | getAllKeys =>
    obtain ⟨_, _, _, hr⟩ := h
    cases hr
  | getRemainingTtl key =>
    refine Vetted.harmless h fun k _ hrest => ?_
    rcases hrest with ⟨_, _, _, hr⟩ | ⟨row, deeds, now, hfetched, marks, hr⟩
    · cases hr
    · refine .inl (harmless_of_marks marks ?_ ?_)
      · simp [Operation.all_isIdle_fetchedLive hfetched, Mark.isIdle]
      · cases hd : row.lifetime.remainingDuration now with
        | ok d => rw [hd] at hr; cases hr
        | error reason =>
          rw [hd] at hr
          obtain rfl := Except.error.inj hr
          rfl
  | getTtlPolicy key =>
    refine Vetted.harmless h fun k _ hrest => ?_
    obtain ⟨_, _, _, _, hr⟩ := hrest
    cases hr
  | size =>
    replace h : Sizes c t (.error f) := h
    cases h
  | put key value ttl policy =>
    refine Vetted.harmless h fun w _ hrest => ?_
    obtain ⟨_, _, _, _, hr⟩ := hrest
    cases hr
  | putIfAbsent key value ttl policy =>
    refine Vetted.harmless h fun w _ hrest => .inl ?_
    exact harmless_of_inserts hrest (List.nil_append t.marks).symm rfl
  | putAll entries ttl policy =>
    refine Vetted.harmless h fun w _ hrest => ?_
    split at hrest
    · obtain ⟨_, _, _, _, hr⟩ := hrest
      cases hr
    · cases hrest.2
  | refreshTtl key ttl policy =>
    refine Vetted.harmless h fun w _ hrest => ?_
    obtain ⟨_, _, _, hr⟩ := hrest
    cases hr
  | evict key =>
    refine Vetted.harmless h fun k _ hrest => ?_
    rcases hrest with ⟨_, hr⟩ | ⟨_, _, _, hr⟩ <;> cases hr
  | evictAll keys =>
    refine Vetted.harmless h fun ks _ hrest => ?_
    split at hrest
    · cases hrest.2
    · obtain ⟨_, _, _, _, hr⟩ := hrest
      cases hr
  | evictByPattern pattern =>
    refine Vetted.harmless h fun g _ hrest => ?_
    obtain ⟨_, _, _, _, hr⟩ := hrest
    cases hr
  | clear =>
    obtain ⟨_, _, _, _, hr⟩ := h
    cases hr
  | cleanupExpired =>
    obtain ⟨_, _, hr, _⟩ := h
    cases hr

/-- Trouble of which a refusal is told was answered with that refusal. -/
theorem Broken.met [Delay τ] {c : Config τ} {call : Call} {t : Trail τ} {f : Failure}
    (broken : Broken c call t f) (refusal : f.isRefusal = true) : t.Met f := by
  cases broken with
  | clock met => exact ⟨_, met, rfl⟩
  | engine met own => exact ⟨_, met, own refusal⟩
  | attempt met made reported strict =>
    cases reported with
    | same => exact ⟨_, met, rfl⟩
    | complaint g x mild => cases mild.symm.trans refusal
    | delay => cases refusal

end Call

/-! ## What a failed call leaves -/

namespace Host

variable [Delay τ] (h : Host τ σ) (c : Config τ) (call : Call) (s : σ)

/-- A lookup refreshes the row of a live sliding entry, which was last accessed at another instant,
and then cannot decode its payload. -/
def InVain : Prop :=
  ∃ key target k row now f, call = .get key true target ∧ Arguments.key key "get" = .ok k ∧
    (h.desk s).table.find? k.text = some row ∧ row.slides = true ∧ row.isExpired now = false ∧
    Payload.decode row.payload.value target (some k) = .error f ∧
    row.lastAccessed ≠ Instant.stored now ∧ (h.trail c call s).marks =
      [.committed (.fetch k.text) (some row), .read now, .committed (.touch k.text now) ()]

variable {h c call s}

/-- A lookup in vain has changed the table. -/
theorem InVain.changes (hvain : h.InVain c call s) :
    (h.desk (h.answer c call s).2).table ≠ (h.desk s).table := by
  obtain ⟨_, _, k, row, now, _, _, _, hfound, _, _, _, hmoves, hmarks⟩ := hvain
  have hdoes := (h.answer_concludes c call s).2
  rw [hmarks] at hdoes
  obtain ⟨-, t, htouch, hafter⟩ := hdoes.touched
  intro hsame
  rw [hafter] at hsame
  have hrow := Transaction.commit_touch_found hfound htouch
  rw [show t = (h.desk s).table from hsame, hfound] at hrow
  exact hmoves (congrArg Row.lastAccessed (Option.some.inj hrow))

theorem harmless_desk {f : Failure} (harmless : Call.Harmless (h.trail c call s) f) :
    h.desk (h.answer c call s).2 = h.desk s ∧
      (f.isRefusal = true → (h.answer c call s).2 = s) :=
  ⟨(h.answer_concludes c call s).2.idle harmless.1,
    fun refusal => h.answer_of_unasked c call s (harmless.2 refusal)⟩

/-- A call that fails has changed nothing, neither the table nor the counters nor the counted size,
and no listener was told of anything, unless it is a lookup in vain, which has changed the table
only.  What is refused, unless the storage itself answered so, has not asked for anything. -/
theorem failure_changes_nothing_iff {f : Failure} (raised : (h.answer c call s).1 = .error f) :
    (h.desk (h.answer c call s).2 = h.desk s ↔ ¬ h.InVain c call s) ∧
      (h.desk (h.answer c call s).2).statistics = (h.desk s).statistics ∧
      (h.desk (h.answer c call s).2).memo = (h.desk s).memo ∧
      (h.desk (h.answer c call s).2).heard = (h.desk s).heard ∧
      (f.isRefusal = true → ¬ (h.trail c call s).Met f → (h.answer c call s).2 = s) := by
  have hvain (hsame : h.desk (h.answer c call s).2 = h.desk s) : ¬ h.InVain c call s :=
    fun vain => vain.changes (congrArg Desk.table hsame)
  obtain ⟨hends, hdoes⟩ := h.answer_concludes c call s
  rw [raised] at hends
  rcases hends with ⟨g, hg, idle, broken⟩ | haccount
  · obtain rfl := Except.error.inj hg
    have hdesk := hdoes.idle idle
    refine ⟨⟨hvain, fun _ => hdesk⟩, ?_⟩
    rw [hdesk]
    exact ⟨rfl, rfl, rfl, fun refusal unmet => absurd (broken.met refusal) unmet⟩
  rcases haccount.failure_cases with harmless | hspoils
  · obtain ⟨hdesk, hunasked⟩ := harmless_desk harmless
    refine ⟨⟨hvain, fun _ => hdesk⟩, ?_⟩
    rw [hdesk]
    exact ⟨rfl, rfl, rfl, fun refusal _ => hunasked refusal⟩
  · obtain ⟨key, target, k, row, now, hcall, hkey, slides, live, fails, marks⟩ := hspoils
    rw [marks] at hdoes
    obtain ⟨hfound, t, htouch, hafter⟩ := hdoes.touched
    refine ⟨⟨hvain, fun hnot => ?_⟩, ?_⟩
    · rw [hafter]
      -- Not in vain: the row was last accessed at this very instant, so nothing has moved.
      have hsame : row.lastAccessed = Instant.stored now :=
        Classical.byContradiction fun hmoves => hnot ⟨key, target, k, row, now, f, hcall, hkey,
          hfound, slides, live, fails, hmoves, marks⟩
      rw [Transaction.commit_touch_same hfound hsame htouch]
    · rw [hafter]
      refine ⟨rfl, rfl, rfl, fun refusal _ => ?_⟩
      cases (Payload.not_isRefusal_of_decode fails).symm.trans refusal

/-- A desk with one sliding entry, a text that was written at 1000. -/
def sliding : Desk Int where
  table := Table.empty.insert "k"
    ⟨.document (.object [("v", .str "x")]), 1000, some 10, Policy.sliding.word, some 1000⟩
  statistics := {}
  memo := {}
  heard := []

/-- A batch of two, the second of which is refused, at 1005. -/
def refused : Except Failure Answer × Int × Desk Int :=
  plain.answer .plain (.putAll (.dict [(.str "k", .int 1), (.str "l", .none)]) .none
    Policy.absolute.toValue) (1005, sliding)

theorem failure_changes_nothing_refused :
    refused.1 = .error (.complaint ⟨.nullRefused, some "put_all", some (.plain "l")⟩) ∧
      refused.2 = (1005, sliding) := by
  have raised : refused.1 =
      .error (.complaint ⟨.nullRefused, some "put_all", some (.plain "l")⟩) := by rfl
  have hunmet : ∀ f, ¬ (plain.trail .plain (.putAll (.dict [(.str "k", .int 1), (.str "l", .none)])
      .none Policy.absolute.toValue) (1005, sliding)).Met f := fun f ⟨_, mem, _⟩ => nomatch mem
  exact ⟨raised, (failure_changes_nothing_iff raised).2.2.2.2 rfl (hunmet _)⟩

/-- The text looked up as a number, at 1005. -/
def misread : Except Failure Answer × Int × Desk Int :=
  plain.answer .plain (.get (.str "k") true (some ⟨"int", .integer⟩)) (1005, sliding)

/-- The lookup fails, and has moved the deadline of the entry from 1010 to 1015. -/
theorem misread_moves_deadline :
    misread.1 = .error (.complaint ⟨.typeMismatch "int" 1, some "decode", some (.plain "k")⟩) ∧
      (sliding.table.find? "k").map (·.lifetime.deadline) = some (some 1010) ∧
      (misread.2.2.table.find? "k").map (·.lifetime.deadline) = some (some 1015) := by
  refine ⟨by rfl, ?_, ?_⟩ <;> decide +kernel

end Host

end ExpiringStore
