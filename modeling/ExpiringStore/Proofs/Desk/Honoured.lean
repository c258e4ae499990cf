import ExpiringStore.Proofs.Desk.Stamping
import ExpiringStore.Proofs.Lifetime.Clock
import ExpiringStore.Proofs.Lifetime.Seconds

/-!
# Lifetimes that are honoured

A lifetime is honoured if it is refused for what it is, or kept as its whole seconds and told as
them at the same instant.  What a store honours is decided by the lifetime as a double and by the
instant: a double under one second is refused, a double of whole seconds is kept as they are, and
what is left of them is told as the difference of two instants.

    sound v now       v is refusable and its double is under one second, or
                      its double has the whole seconds of v, and now bears them
    put, refresh_ttl honour v   ↔   sound v now                            (lifetime_honoured_iff)
    |now| + v < 2^32            →   they honour v at a reading of a clock       (honours_by_clock)
-/

namespace ExpiringStore

variable {σ : Type}

/-! ## What is honoured -/

/-- Is a lifetime at an instant what its double says of it? -/
inductive Value.IsSoundAt (v : Value) (now : Number) : Prop
  | refusable {x : Float} (double : v.inSeconds? = some x)
      (under : (Binary64.decode x).isUnderOne = true) (inadmissible : ¬v.IsAdmissible)
  | keepable {x : Float} {d : Dyadic} (double : v.inSeconds? = some x)
      (decodes : Binary64.decode x = .finite d) (least : 1 ≤ d.truncate)
      (spans : v.Spans d.truncate) (bears : now.Bears d.truncate)

namespace Value.IsSoundAt

variable {v : Value} {now : Number} {x : Float} {d : Dyadic} {n m : Int}

theorem of_double (double : v.inSeconds? = some x) (decodes : Binary64.decode x = .finite d)
    (spans : 1 ≤ d.truncate → v.Spans d.truncate) (under : d.truncate < 1 → ¬v.IsAdmissible) :
    v.IsSoundAt now ↔ d.truncate < 1 ∨ now.Bears d.truncate := by
  constructor
  · rintro (⟨double', hunder, -⟩ | ⟨double', decodes', -, -, bears⟩)
    · obtain rfl := Option.some.inj (double.symm.trans double')
      rw [decodes] at hunder
      exact .inl (of_decide_eq_true hunder)
    · obtain rfl := Option.some.inj (double.symm.trans double')
      obtain rfl := Binary64.finite.inj (decodes.symm.trans decodes')
      exact .inr bears
  · intro h
    by_cases hunder : d.truncate < 1
    · exact .refusable double (by rw [decodes]; exact decide_eq_true hunder) (under hunder)
    · have least := not_lt.1 hunder
      exact .keepable double decodes least (spans least) (h.resolve_left hunder)

/-- A finite double is sound unless the instant does not bear its whole seconds. -/
theorem float_finite (decodes : Binary64.decode x = .finite d) :
    (Value.float x).IsSoundAt now ↔ d.truncate < 1 ∨ now.Bears d.truncate :=
  of_double rfl decodes (spans_float decodes) (not_isAdmissible_float decodes)

/-- A double that is not finite is sound if it is less than anything. -/
theorem float_infinite {negative : Bool} (decodes : Binary64.decode x = .infinite negative) :
    (Value.float x).IsSoundAt now ↔ negative = true := by
  constructor
  · rintro (⟨double, under, -⟩ | ⟨double, decodes', -, -, -⟩)
    · obtain rfl := Option.some.inj double
      rw [decodes] at under
      exact under
    · obtain rfl := Option.some.inj double
      cases decodes.symm.trans decodes'
  · rintro rfl
    refine .refusable (x := x) rfl (by rw [decodes]; rfl) ?_
    rintro ⟨n, -, -, q, hq, -⟩
    cases (congrArg Binary64.value? decodes).symm.trans hq

theorem float_undefined (decodes : Binary64.decode x = .undefined) :
    ¬(Value.float x).IsSoundAt now := by
  rintro (⟨double, under, -⟩ | ⟨double, decodes', -, -, -⟩)
  · obtain rfl := Option.some.inj double
    rw [decodes] at under
    cases under
  · obtain rfl := Option.some.inj double
    cases decodes.symm.trans decodes'

/-- A whole number of at most 53 binary digits is sound if it is refusable, or borne. -/
theorem int_small (small : n.natAbs < 2 ^ 53) :
    (Value.int n).IsSoundAt now ↔ n < 1 ∨ now.Bears n := by
  obtain ⟨x, d, hx, decodes, hvalue⟩ := Number.value_doubleOfInt small
  obtain rfl := Dyadic.truncate_of_value hvalue
  refine of_double hx decodes (fun _ => spans_int _) ?_
  rintro under ⟨m, least, -, spans⟩
  have := spans.unique (spans_int _)
  omega

/-- At a whole instant, so many seconds are sound as a duration can hold. -/
theorem int_whole (small : n.natAbs < 2 ^ 53) :
    (Value.int n).IsSoundAt (.int m) ↔ n ≤ Duration.longest := by
  rw [int_small small]
  rcases lt_or_ge n 1 with hunder | least
  · exact iff_of_true (.inl hunder) (by unfold Duration.longest; omega)
  · rw [Number.bears_int m (by omega)]
    exact or_iff_right (not_lt.2 least)

/-- By a clock, so many seconds are sound as end before its readings take 33 binary digits. -/
theorem int_clock {a : ℚ} (reading : (Number.float x).value? = some a) (least : 1 ≤ n)
    (most : |a| + n < 2 ^ 32) : (Value.int n).IsSoundAt (.float x) := by
  have hsmall := Number.length_lt most
  exact (int_small (by omega)).2 (.inr (Number.bears_float reading least most))

theorem float_clock {y : Float} {a : ℚ} (reading : (Number.float y).value? = some a)
    (decodes : Binary64.decode x = .finite d) (most : |a| + d.value < 2 ^ 32) :
    (Value.float x).IsSoundAt (.float y) := by
  rw [float_finite decodes]
  rcases lt_or_ge d.truncate 1 with hunder | least
  · exact .inl hunder
  · refine .inr (Number.bears_float reading least (lt_of_le_of_lt ?_ most))
    exact add_le_add_right (Dyadic.truncate_spans least).1 _

theorem duration_clock {u : Duration} {y : Float} {a : ℚ}
    (reading : (Number.float y).value? = some a) (hpos : 0 < u.micros)
    (most : |a| + u.micros / 1000000 < 2 ^ 32) : (Value.duration u).IsSoundAt (.float y) := by
  have hsmall : u.micros < 2 ^ 32 * 1000000 := by
    have hlt : (u.micros : ℚ) < 2 ^ 32 * 1000000 := by
      rw [← div_lt_iff₀ (by norm_num)]
      linarith [abs_nonneg a]
    exact_mod_cast hlt
  obtain ⟨d, decodes, hwhole⟩ := Duration.truncate_toSeconds hpos hsmall
  have hspans : (Value.duration u).Spans d.truncate := hwhole ▸ spans_duration u
  refine (of_double rfl decodes (fun _ => hspans) fun hunder => ?_).2 ?_
  · rintro ⟨n, least, -, hn⟩
    have := hn.unique hspans
    omega
  · rcases lt_or_ge d.truncate 1 with hunder | least
    · exact .inl hunder
    · refine .inr (Number.bears_float reading least (lt_of_le_of_lt ?_ most))
      obtain ⟨q, hq, hle, -⟩ := hspans
      obtain rfl := Option.some.inj hq
      exact add_le_add_right hle _

/-- By a clock, every lifetime is sound that ends before its readings take 33 binary digits. -/
theorem clock {y : Float} {a q : ℚ} (time : v.IsTime) (exactly : v.exactSeconds? = some q)
    (positive : 0 < q) (reading : (Number.float y).value? = some a) (most : |a| + q < 2 ^ 32) :
    v.IsSoundAt (.float y) := by
  rcases time with ⟨n, rfl⟩ | ⟨x, rfl⟩ | ⟨u, rfl⟩
  · obtain rfl := Option.some.inj exactly
    exact int_clock reading (Int.cast_pos.1 positive) most
  · obtain ⟨d, decodes, rfl⟩ := Number.finite_of_value? exactly
    exact float_clock reading decodes most
  · obtain rfl := Option.some.inj exactly
    have hpos : 0 < u.micros := by
      have hlt : (0 : ℚ) < u.micros := by linarith
      exact_mod_cast hlt
    exact duration_clock reading hpos most

end Value.IsSoundAt

namespace Station

/-- A lifetime is honoured that a call gives to the entry of a key.  Either it is refused because it
is not admissible, and nothing is stored; or its whole seconds are stored, and told as they are. -/
inductive Honours (h : Station Number σ) (c : Config Number) (s : σ) (call : Call) (v key : Value)
    (k : Key) (accepted : Answer) : Prop
  | refused {x : Complaint} (inadmissible : ¬v.IsAdmissible)
      (complains : (h.answer c call s).1 = .error (.complaint x)) (family : x.kind = .validation)
      (same : h.desk (h.answer c call s).2 = h.desk s)
  | kept {n : Int} {row : Row Number} (admissible : v.IsAdmissible) (least : 1 ≤ n)
      (spans : v.Spans n) (accepts : (h.answer c call s).1 = .ok accepted)
      (found : (h.desk (h.answer c call s).2).table.find? k.text = some row)
      (length : row.ttl = some (.int n))
      (told : (h.answer c (.getRemainingTtl key) (h.answer c call s).2).1 =
        .ok (.value (.duration ⟨n * Duration.microsPerSecond⟩)))

namespace Stamps

variable {h : Station Number σ} {audience : σ → List ListenerId} {c : Config Number} {s : σ}
  {operation : String} {call : Call} {v key : Value} {k : Key} {accepted : Answer} {payload : Cell}

/-- A double under one second is refused, and that honours what is not admissible. -/
theorem honours_under (stamps : Stamps h c s operation call v k accepted payload) (time : v.IsTime)
    {x : Float} (double : v.inSeconds? = some x) (under : (Binary64.decode x).isUnderOne = true) :
    Honours h c s call v key k accepted ↔ ¬v.IsAdmissible := by
  obtain ⟨cause, hrefused, hcause⟩ := Arguments.ttl_under time operation (some k) double under
  obtain ⟨hanswer, hsame⟩ := stamps.refuses hrefused
  constructor
  · rintro (inadmissible | ⟨-, -, -, accepts, -⟩)
    · exact inadmissible
    · cases hanswer.symm.trans accepts
  · exact fun inadmissible => .refused inadmissible hanswer hcause hsame

/-- What is stored is honoured if it is what was given, and if as much is left of it. -/
theorem honours_whole (steady : h.Steady audience)
    (stamps : Stamps h c s operation call v k accepted payload)
    (given : Arguments.key key "get_remaining_ttl" = .ok k) {n : Int}
    (whole : Arguments.ttl v operation (some k) = .ok n) (least : 1 ≤ n) :
    Honours h c s call v key k accepted ↔
      v.Spans n ∧ (h.clock s).Bears n ∧ payload.readError? = none := by
  by_cases hfit : fitsWord n = true ∧ (h.clock s).isNaN = false
  · obtain ⟨hanswer, row, p, hrow, hlifetime, hpayload⟩ := stamps.keeps whole hfit.1 hfit.2
    have hlength : row.ttl = some (.int n) := congrArg Lifetime.length hlifetime
    have hclock : h.clock (h.answer c call s).2 = h.clock s :=
      (Program.kind_run steady.stays_kind (ExceptT.run (call.program c))
        (⟨rfl, rfl⟩ : h.clock s = h.clock s ∧ audience s = audience s)).1
    have hsettled := steady.settled c (.getRemainingTtl key) (h.answer c call s).2
    rw [hclock] at hsettled
    constructor
    · rintro (⟨-, complains, -⟩ | ⟨-, -, spans, -, found, length, told⟩)
      · cases hanswer.symm.trans complains
      · obtain rfl := Option.some.inj (hrow.symm.trans found)
        obtain rfl := Number.int.inj (Option.some.inj (hlength.symm.trans length))
        rw [told] at hsettled
        have hlegible : row.payload.readError? = none := by
          by_contra illegible
          obtain ⟨f, hf⟩ := hsettled.remaining_illegible given hrow illegible
          cases hf
        have hleft := hsettled.remaining given hrow hlegible
        unfold Row.isExpired at hleft
        rw [hlifetime] at hleft
        refine ⟨spans, ?_, hpayload ▸ hlegible⟩
        cases hlive : (Lifetime.fresh (h.clock s) n p).isExpired (h.clock s) with
        | true =>
          rw [hlive, if_pos rfl] at hleft
          cases hleft
        | false =>
          refine Number.bears_of hfit.2 hlive ?_
          rw [hlive, if_neg Bool.false_ne_true] at hleft
          cases hremaining : (Lifetime.fresh (h.clock s) n p).remainingDuration (h.clock s) with
          | error reason => rw [hremaining] at hleft; cases hleft
          | ok left =>
            rw [hremaining] at hleft
            cases left with
            | none => cases hleft
            | some d =>
              obtain rfl := Value.duration.inj (Answer.value.inj (Except.ok.inj hleft))
              rfl
    · rintro ⟨spans, bears, legible⟩
      have hleft := hsettled.remaining given hrow (hpayload ▸ legible)
      unfold Row.isExpired at hleft
      rw [hlifetime, bears.live p, if_neg Bool.false_ne_true, bears.left p] at hleft
      exact .kept ⟨n, least, bears.le_longest, spans⟩ least spans hanswer hrow hlength hleft
  · obtain ⟨f, hanswer, hf⟩ := stamps.fails whole hfit
    constructor
    · rintro (⟨-, complains, family, -⟩ | ⟨-, -, -, accepts, -⟩)
      · exact absurd family (hf _ (Except.error.inj (hanswer.symm.trans complains)))
      · cases hanswer.symm.trans accepts
    · rintro ⟨-, bears, -⟩
      have hmost := bears.le_longest
      unfold Duration.longest at hmost
      refine absurd ⟨?_, bears.known⟩ hfit
      unfold fitsWord
      simp only [Bool.and_eq_true, decide_eq_true_eq]
      omega

/-- A lifetime that fails otherwise is not honoured. -/
theorem not_honours (stamps : Stamps h c s operation call v k accepted payload) {f : Failure}
    (fails : Arguments.ttl v operation (some k) = .error f) (foreign : f.complaint? = none) :
    ¬Honours h c s call v key k accepted := by
  obtain ⟨hanswer, -⟩ := stamps.refuses fails
  rintro (⟨-, complains, -⟩ | ⟨-, -, -, accepts, -⟩)
  · obtain rfl := Except.error.inj (hanswer.symm.trans complains)
    cases foreign
  · cases hanswer.symm.trans accepts

/-- A lifetime is honoured if it is sound at the instant, and if its entry can be read. -/
theorem honours_iff (steady : h.Steady audience)
    (stamps : Stamps h c s operation call v k accepted payload) (time : v.IsTime)
    (given : Arguments.key key "get_remaining_ttl" = .ok k) :
    Honours h c s call v key k accepted ↔
      v.IsSoundAt (h.clock s) ∧ (v.IsAdmissible → payload.readError? = none) := by
  rcases Arguments.ttl_cases time operation (some k) with
    ⟨x, double, under⟩ | ⟨x, d, double, decodes, least⟩ | ⟨f, fails, foreign⟩
  · rw [stamps.honours_under time double under]
    constructor
    · exact fun inadmissible => ⟨.refusable double under inadmissible, (absurd · inadmissible)⟩
    · rintro ⟨(⟨-, -, inadmissible⟩ | ⟨double', decodes, least, -, -⟩), -⟩
      · exact inadmissible
      · obtain rfl := Option.some.inj (double.symm.trans double')
        rw [decodes] at under
        exact absurd (of_decide_eq_true under) (not_lt.2 least)
  · have whole := Arguments.ttl_whole time operation (some k) double decodes least
    rw [stamps.honours_whole steady given whole least]
    constructor
    · rintro ⟨spans, bears, legible⟩
      exact ⟨.keepable double decodes least spans bears, fun _ => legible⟩
    · rintro ⟨(⟨double', under, -⟩ | ⟨double', decodes', -, spans, bears⟩), legible⟩
      · obtain rfl := Option.some.inj (double.symm.trans double')
        rw [decodes] at under
        exact absurd (of_decide_eq_true under) (not_lt.2 least)
      · obtain rfl := Option.some.inj (double.symm.trans double')
        obtain rfl := Binary64.finite.inj (decodes.symm.trans decodes')
        exact ⟨spans, bears, legible ⟨_, least, bears.le_longest, spans⟩⟩
  · refine iff_of_false (stamps.not_honours fails foreign) ?_
    rintro ⟨(⟨double, under, -⟩ | ⟨double, decodes, least, -, -⟩), -⟩
    · obtain ⟨cause, hrefused, -⟩ := Arguments.ttl_under time operation (some k) double
        under
      obtain rfl := Except.error.inj (fails.symm.trans hrefused)
      cases foreign
    · cases fails.symm.trans (Arguments.ttl_whole time _ _ double decodes least)

end Stamps

/-! ## The calls that give a lifetime -/

variable {h : Station Number σ} {audience : σ → List ListenerId} {c : Config Number} {s : σ}
  {v key : Value} {k : Key} {call : Call} {accepted : Answer} {payload : Cell}

/-- The calls that give the entry of a key a lifetime, what they answer then, and what the entry
holds: a put whose other arguments are in order, and so a renewal, of an entry that is live. -/
inductive Gives (h : Station Number σ) (c : Config Number) (s : σ) (v key : Value) (k : Key) :
    Call → Answer → Cell → Prop
  | put {value policy : Value} {o : Policy} {p : Json} (hkey : Arguments.key key "put" = .ok k)
      (hpolicy : Arguments.policy policy "put" (some k) = .ok o)
      (hpayload : Arguments.payload c.allowNull k value "put" = .ok p) :
      Gives h c s v key k (.put key value v policy) .nothing (.document p)
  | refreshTtl {policy : Value} {o : Policy} {old : Row Number}
      (hkey : Arguments.key key "refresh_ttl" = .ok k)
      (hpolicy : Arguments.policy policy "refresh_ttl" (some k) = .ok o)
      (found : (h.desk s).table.find? k.text = some old)
      (live : (Condition.live old (h.clock s)).holds = true) :
      Gives h c s v key k (.refreshTtl key v policy) (.bool true) old.payload

/-- Such a call stamps an entry, whose key `get_remaining_ttl` accepts as well. -/
theorem Gives.stamps (gives : h.Gives c s v key k call accepted payload)
    (steady : h.Steady audience)
    (time : v.IsTime) : (∃ operation, Stamps h c s operation call v k accepted payload) ∧
      Arguments.key key "get_remaining_ttl" = .ok k := by
  cases gives with
  | put hkey hpolicy hpayload =>
    exact ⟨⟨_, stamps_put steady time hkey hpolicy hpayload⟩, Arguments.key_accepted hkey _⟩
  | refreshTtl hkey hpolicy found live =>
    exact ⟨⟨_, stamps_refreshTtl steady time hkey hpolicy found live⟩,
      Arguments.key_accepted hkey _⟩

/-- By a clock, every lifetime is honoured that ends before its readings take 33 binary digits. -/
theorem honours_by_clock {y : Float} {a q : ℚ} (steady : h.Steady audience) (time : v.IsTime)
    (gives : h.Gives c s v key k call accepted payload) (legible : payload.readError? = none)
    (exactly : v.exactSeconds? = some q) (positive : 0 < q) (clock : h.clock s = .float y)
    (reading : (Number.float y).value? = some a) (most : |a| + q < 2 ^ 32) :
    h.Honours c s call v key k accepted := by
  obtain ⟨⟨operation, stamps⟩, hkey⟩ := gives.stamps steady time
  refine (stamps.honours_iff steady time hkey).2 ⟨?_, fun _ => legible⟩
  rw [clock]
  exact .clock time exactly positive reading most

/-- On a station where only that fails which has to, a lifetime is honoured if it is sound at the
instant, and if its entry can be read where it is to be stored. -/
theorem lifetime_honoured_iff (steady : h.Steady audience) (time : v.IsTime)
    (gives : h.Gives c s v key k call accepted payload) :
    h.Honours c s call v key k accepted ↔
      v.IsSoundAt (h.clock s) ∧ (v.IsAdmissible → payload.readError? = none) := by
  obtain ⟨⟨operation, stamps⟩, hkey⟩ := gives.stamps steady time
  exact stamps.honours_iff steady time hkey

/-- Half a second before its deadline, an entry is given ten seconds anew, by either call. -/
theorem lifetime_honoured_aged :
    let h := attended (τ := Number) []
    let c : Config Number := ⟨false, true, false, none, .int 5, ⟨3, .int 1, .int 2, .int 30⟩, true⟩
    let s := (.float 9.5, aged (.document (.object [("v", .int 1)])))
    h.Honours c s (.put (.str "k") (.int 2) (.int 10) (.str "SLIDING")) (.int 10) (.str "k")
        (.plain "k") .nothing ∧
      h.Honours c s (.refreshTtl (.str "k") (.int 10) (.str "ABSOLUTE")) (.int 10) (.str "k")
        (.plain "k") (.bool true) := by
  intro h c s
  have bears : (h.clock s).Bears 10 := Number.bears_of (p := .absolute) rfl rfl (by decide +kernel)
  have sound : (Value.int 10).IsSoundAt (h.clock s) :=
    (Value.IsSoundAt.int_small (by decide)).2 (.inr bears)
  exact ⟨(lifetime_honoured_iff (steady_attended []) (.inl ⟨_, rfl⟩) (.put rfl rfl rfl)).2
      ⟨sound, fun _ => rfl⟩,
    (lifetime_honoured_iff (steady_attended []) (.inl ⟨_, rfl⟩) (.refreshTtl rfl rfl rfl rfl)).2
      ⟨sound, fun _ => rfl⟩⟩

/-- What is no number is no complaint; a length that fits the table need not fit a duration; and a
duration of 17179869184 seconds and all but a microsecond is kept as one second more. -/
theorem lifetime_not_honoured :
    let h := attended (τ := Number) []
    let c : Config Number := ⟨false, true, false, none, .int 5, ⟨3, .int 1, .int 2, .int 30⟩, true⟩
    let s : Number × Desk Number := (.float 1000, ⟨Table.empty, {}, {}, []⟩)
    let honours (v : Value) :=
      h.Honours c s (.put (.str "k") (.int 1) v (.str "ABSOLUTE")) v (.str "k") (.plain "k")
        .nothing
    ¬honours (.float (0 / 0)) ∧ ¬honours (.int 100000000000000) ∧
      ¬honours (.duration ⟨17179869184999999⟩) := by
  intro h c s honours
  let put (v : Value) : Call := .put (.str "k") (.int 1) v (.str "ABSOLUTE")
  refine ⟨?_, ?_, ?_⟩
  · have hanswer : (h.answer c (put (.float (0 / 0))) s).1 = .error .undefinedNumber := rfl
    rintro (⟨-, complains, -⟩ | ⟨-, -, -, accepts, -⟩)
    · cases hanswer.symm.trans complains
    · cases hanswer.symm.trans accepts
  · have hanswer : (h.answer c (put (.int 100000000000000)) s).1 = .ok .nothing := rfl
    rintro (⟨-, complains, -⟩ | ⟨⟨n, -, most, spans⟩, -⟩)
    · cases hanswer.symm.trans complains
    · obtain rfl := spans.unique (Value.spans_int _)
      exact absurd most (by decide)
  · have hanswer : (h.answer c (put (.duration ⟨17179869184999999⟩)) s).1 = .ok .nothing := rfl
    have hlength : ((h.desk (h.answer c (put (.duration ⟨17179869184999999⟩)) s).2).table.find?
        "k").bind Row.ttl = some (.int 17179869185) := rfl
    rintro (⟨-, complains, -⟩ | ⟨-, -, ⟨q, hq, hle, -⟩, -, found, length, -⟩)
    · cases hanswer.symm.trans complains
    · replace found : (h.desk (h.answer c (put (.duration ⟨17179869184999999⟩)) s).2).table.find?
        "k" = some _ := found
      rw [found] at hlength
      obtain rfl := Number.int.inj (Option.some.inj (length.symm.trans hlength))
      obtain rfl := Option.some.inj hq
      norm_num at hle

end Station

end ExpiringStore
