import ExpiringStore.Proofs.Desk.Batches
import ExpiringStore.Proofs.Desk.Insertion
import ExpiringStore.Proofs.Lifetime.Fresh

/-!
# Stamps

Two calls stamp an entry with a lifetime that they are given: a put, and a renewal of a live entry.
What of the lifetime is not in order they refuse before they have stored anything.  What is in order
runs from the instant of the call, and what is left of it can be asked for.

    put, refresh_ttl with v
      v refused as it is checked    →   refused, and nothing is stored
      v of n whole seconds          →   the entry is fresh now n, or the table has refused it
-/

namespace ExpiringStore

variable {τ σ : Type}

/-! ## What is left of a lifetime -/

section
variable [Instant τ] {c : Config τ} {now : τ} {ls : List ListenerId} {d d' : Desk τ}
  {r : Except Failure Answer}

theorem Transaction.commit_fetch_unreadable {t : Table τ} {key : String} {row : Row τ}
    (found : t.find? key = some row) (unreadable : row.payload.readError? ≠ none)
    (reply : Option (Row τ)) (t' : Table τ) : commit t (.fetch key) ≠ .ok (reply, t') := by
  intro h
  have hread := (reply_reading rfl h).1
  rw [found] at hread
  replace hread : (readable row).map some = .ok reply := hread
  cases hrow : readable row with
  | error f => rw [hrow] at hread; cases hread
  | ok row' =>
    unfold readable at hrow
    split at hrow
    · cases hrow
    · next hnone => exact unreadable hnone

theorem Settled.remaining {key : Value} {k : Key} {row : Row τ}
    (given : Arguments.key key "get_remaining_ttl" = .ok k)
    (found : d.table.find? k.text = some row) (legible : row.payload.readError? = none)
    (settled : Settled c (.getRemainingTtl key) now ls d d' r) :
    r = if row.isExpired now then .ok (.optional .duration none)
      else ((row.lifetime.remainingDuration now).mapError .duration).map (.optional .duration) := by
  cases settled with
  | accounts account marks does =>
    rcases Call.Vetted.rest account given with
      ⟨deeds, fetched, hmarks, hr⟩ | ⟨row', deeds, n, fetched, hmarks, hr⟩
    · rw [hmarks] at marks does
      cases fetched with
      | missing =>
        have hnone := does.fetched.1
        rw [found] at hnone
        cases hnone
      | expired row' n dead =>
        have hrow := does.fetched.1
        rw [found] at hrow
        obtain rfl := Option.some.inj hrow
        obtain rfl : n = now := marks (.read n) (by simp [Deed.mark])
        rw [if_pos dead]
        exact hr
    · rw [hmarks] at marks does
      cases fetched with
      | live row' first live =>
        have hrow := does.fetched.1
        rw [found] at hrow
        obtain rfl := Option.some.inj hrow
        obtain rfl : n = now := marks (.read n) (by simp)
        obtain rfl : first = n := marks (.read first) (by simp [Deed.mark])
        rw [if_neg (Bool.eq_false_iff.1 live)]
        exact hr
  | refused made read refuses same =>
    cases made with
    | getRemainingTtl given' =>
      obtain rfl := Except.ok.inj (given.symm.trans given')
      refine absurd refuses (Transaction.commit_fetch_ne fun row' found' => ?_)
      obtain rfl := Option.some.inj (found.symm.trans found')
      exact legible

/-- Of an entry that cannot be read, no time is told. -/
theorem Settled.remaining_illegible {key : Value} {k : Key} {row : Row τ}
    (given : Arguments.key key "get_remaining_ttl" = .ok k)
    (found : d.table.find? k.text = some row) (illegible : row.payload.readError? ≠ none)
    (settled : Settled c (.getRemainingTtl key) now ls d d' r) : ∃ f, r = .error f := by
  cases settled with
  | accounts account marks does =>
    -- Whatever was fetched, nothing can have been.
    have hnothing {found' : Option (Row τ)} {ms : List (Mark τ)}
        (h : Does (fun d d' => d' = d) (.committed (.fetch k.text) found' :: ms) d d') : False := by
      obtain ⟨d₁, ⟨t, hcommit, -⟩, -⟩ := h
      exact Transaction.commit_fetch_unreadable found illegible _ _ hcommit
    rcases Call.Vetted.rest account given with
      ⟨deeds, fetched, hmarks, -⟩ | ⟨row', deeds, n, fetched, hmarks, -⟩
    · rw [hmarks] at does
      cases fetched <;> exact (hnothing does).elim
    · rw [hmarks] at does
      cases fetched
      exact (hnothing does).elim
  | refused made read refuses same => exact ⟨_, rfl⟩

/-! ## What is written -/

/-- A put whose arguments are not in order is refused, and leaves everything as it is. -/
theorem Settled.put_refused {key value ttl policy : Value} {f : Failure}
    (fails : Arguments.written c "put" key value ttl policy = .error f)
    (settled : Settled c (.put key value ttl policy) now ls d d' r) : r = .error f ∧ d' = d := by
  cases settled with
  | accounts account marks does =>
    have hvetted : Call.Vetted (Arguments.written c "put" key value ttl policy) _ _ _ := account
    rw [fails] at hvetted
    obtain ⟨rfl, hr⟩ := hvetted
    exact ⟨hr, does⟩
  | refused made read refuses same =>
    cases made with
    | put given => cases fails.symm.trans given

theorem Settled.refreshTtl_refused {key ttl policy : Value} {f : Failure}
    (fails : Arguments.renewal key ttl policy = .error f)
    (settled : Settled c (.refreshTtl key ttl policy) now ls d d' r) : r = .error f ∧ d' = d := by
  cases settled with
  | accounts account marks does =>
    have hvetted : Call.Vetted (Arguments.renewal key ttl policy) _ _ _ := account
    rw [fails] at hvetted
    obtain ⟨rfl, hr⟩ := hvetted
    exact ⟨hr, does⟩
  | refused made read refuses same =>
    cases made with
    | refreshTtl given => cases fails.symm.trans given

namespace Transaction

variable {t : Table τ} {key : String} {old kept : Row τ} {n : Int} {o : Policy}

theorem commit_extend_unfit (unfit : fitsWord n = false) :
    commit t (.extend key n o now) = .error .integerTooLarge := by
  rw [commit_eq]
  simp only [firstOn, unfit]
  rfl

theorem firstOn_extend_live (fits : fitsWord n = true) (found : t.find? key = some old)
    (live : (Condition.live old now).holds = true) : firstOn t (.extend key n o now) =
      match constrained (renewed old n o now) with
      | .error f => .error f
      | .ok r => changing true (t.insert key r) := by
  simp only [firstOn, fits, found, live]
  rfl

theorem commit_extend_live (fits : fitsWord n = true) (found : t.find? key = some old)
    (live : (Condition.live old now).holds = true)
    (keeps : constrained (renewed old n o now) = .ok kept) :
    commit t (.extend key n o now) = .ok (true, t.insert key kept) := by
  rw [commit_eq, firstOn_extend_live fits found live, keeps]
  rfl

theorem commit_extend_refused {g : Failure} (fits : fitsWord n = true)
    (found : t.find? key = some old) (live : (Condition.live old now).holds = true)
    (refuses : constrained (renewed old n o now) = .error g) :
    commit t (.extend key n o now) = .error g := by
  rw [commit_eq, firstOn_extend_live fits found live, refuses]
  rfl

end Transaction

theorem Settled.refreshTtl_renewed {key ttl policy : Value} {w : Renewal} {old kept : Row τ}
    (given : Arguments.renewal key ttl policy = .ok w) (fits : fitsWord w.ttl = true)
    (found : d.table.find? w.key.text = some old) (live : (Condition.live old now).holds = true)
    (keeps : Transaction.constrained (Transaction.renewed old w.ttl w.policy now) = .ok kept)
    (settled : Settled c (.refreshTtl key ttl policy) now ls d d' r) :
    r = .ok (.bool true) ∧ d'.table = d.table.insert w.key.text kept := by
  have hcommits := Transaction.commit_extend_live fits found live keeps
  cases settled with
  | accounts account marks does =>
    obtain ⟨n, b, hmarks, hr⟩ := Call.Vetted.rest account given
    rw [hmarks] at marks does
    obtain rfl : n = now := marks (.read n) (by simp)
    obtain ⟨d₀, hread, d₁, ⟨t, hcommit, rfl⟩, hrest⟩ := does
    obtain rfl : d₀ = d := hread
    rw [hcommits] at hcommit
    obtain ⟨rfl, rfl⟩ := Prod.mk.inj (Except.ok.inj hcommit)
    obtain ⟨d₂, rfl, rfl⟩ := hrest
    exact ⟨hr, rfl⟩
  | refused made read refuses same =>
    cases made with
    | @refreshTtl _ _ _ _ w' n given' hread =>
      obtain rfl := Except.ok.inj (given.symm.trans given')
      obtain rfl := read n hread
      rw [hcommits] at refuses
      cases refuses

namespace Station.Steady

variable {h : Station τ σ} {audience : σ → List ListenerId} {s : σ} [Delay τ]

/-- What a call commits first, the table has not refused. -/
theorem first_committed (steady : h.Steady audience) {call : Call} {n : τ} {a : Transaction τ}
    {reply : a.Reply} {rest : List (Mark τ)}
    (hmarks : (h.trail c call s).marks = .read n :: .committed a reply :: rest) :
    n = h.clock s ∧ ∃ t, a.commit (h.desk s).table = .ok (reply, t) := by
  have hof := steady.isOf_trailAfter (ExceptT.run (call.program c)) s
  have hdoes := (h.answer_concludes c call s).2
  rw [hmarks] at hdoes
  replace hof : ∀ m ∈ (h.trail c call s).marks, m.IsOf (h.clock s) (audience s) := hof
  rw [hmarks] at hof
  obtain ⟨d₀, hread, d₁, ⟨t, hcommit, -⟩, -⟩ := hdoes
  obtain rfl : d₀ = h.desk s := hread
  exact ⟨hof (.read n) List.mem_cons_self, t, hcommit⟩

/-- A put fails with what is reported of the refusal of its row. -/
theorem put_fails (steady : h.Steady audience) {key value ttl policy : Value} {w : Written}
    (given : Arguments.written c "put" key value ttl policy = .ok w) {g : Failure}
    (refuses : (Transaction.write [(w.key.text, w.row (h.clock s))]).commit (h.desk s).table =
      .error g) :
    ∃ f, (h.answer c (.put key value ttl policy) s).1 = .error f ∧ c.Reports g f := by
  rcases steady.concluded c (.put key value ttl policy) s with
    haccounts | ⟨f, g', deeds, a, hf, -, made, read, refuses', reported⟩
  · obtain ⟨n, told, -, hmarks, -⟩ := Call.Vetted.rest haccounts given
    obtain ⟨rfl, t, hcommit⟩ := steady.first_committed hmarks
    cases refuses.symm.trans hcommit
  · cases made with
    | @put _ _ _ _ _ w' n given' hread =>
      obtain rfl := Except.ok.inj (given.symm.trans given')
      obtain rfl := read n hread
      obtain rfl := Except.error.inj (refuses.symm.trans refuses')
      exact ⟨f, hf, reported⟩

/-- A renewal fails with what is reported of the refusal of its transaction. -/
theorem refreshTtl_fails (steady : h.Steady audience) {key ttl policy : Value} {w : Renewal}
    (given : Arguments.renewal key ttl policy = .ok w) {g : Failure}
    (refuses : (Transaction.extend w.key.text w.ttl w.policy (h.clock s)).commit
      (h.desk s).table = .error g) :
    ∃ f, (h.answer c (.refreshTtl key ttl policy) s).1 = .error f ∧ c.Reports g f := by
  rcases steady.concluded c (.refreshTtl key ttl policy) s with
    haccounts | ⟨f, g', deeds, a, hf, -, made, read, refuses', reported⟩
  · obtain ⟨n, b, hmarks, -⟩ := Call.Vetted.rest haccounts given
    obtain ⟨rfl, t, hcommit⟩ := steady.first_committed hmarks
    cases refuses.symm.trans hcommit
  · cases made with
    | @refreshTtl _ _ _ _ w' n given' hread =>
      obtain rfl := Except.ok.inj (given.symm.trans given')
      obtain rfl := read n hread
      obtain rfl := Except.error.inj (refuses.symm.trans refuses')
      exact ⟨f, hf, reported⟩

end Station.Steady

end

/-! ## The calls that stamp -/

namespace Station

/-- What a call does with a lifetime that it gives to the entry of a key: it refuses it as it is
checked, writes it at the instant, or fails for a reason that is no fault of the caller. -/
structure Stamps (h : Station Number σ) (c : Config Number) (s : σ) (operation : String)
    (call : Call) (v : Value) (k : Key) (accepted : Answer) (payload : Cell) : Prop where
  refuses {f : Failure} (fails : Arguments.ttl v operation (some k) = .error f) :
    (h.answer c call s).1 = .error f ∧ h.desk (h.answer c call s).2 = h.desk s
  keeps {n : Int} (whole : Arguments.ttl v operation (some k) = .ok n) (fits : fitsWord n = true)
    (known : (h.clock s).isNaN = false) : (h.answer c call s).1 = .ok accepted ∧
      ∃ row p, (h.desk (h.answer c call s).2).table.find? k.text = some row ∧
        row.lifetime = .fresh (h.clock s) n p ∧ row.payload = payload
  fails {n : Int} (whole : Arguments.ttl v operation (some k) = .ok n)
    (unfit : ¬(fitsWord n = true ∧ (h.clock s).isNaN = false)) :
    ∃ f, (h.answer c call s).1 = .error f ∧ ∀ x, f = .complaint x → x.kind ≠ .validation

/-- A row that is stamped at an instant is kept as it is, or refused for reasons of the table. -/
theorem constrained_stamped {r : Row Number} {now : Number} {n : Int}
    (length : r.ttl = some (.int n)) (updated : r.updatedAt = now)
    (accessed : r.lastAccessed = some now) :
    (fitsWord n = true → now.isNaN = false → Transaction.constrained r = .ok r) ∧
      (¬(fitsWord n = true ∧ now.isNaN = false) →
        ∃ g, Transaction.constrained r = .error g ∧ g.complaint? = none) := by
  have hfits : r.ttl.all Instant.fits = fitsWord n := by
    rw [length]
    rfl
  refine ⟨fun fits known => Transaction.constrained_known (hfits.trans fits) updated accessed known,
    fun unfit => ?_⟩
  have hunknown : Instant.isUnknown r.updatedAt = now.isNaN := by
    rw [updated]
    rfl
  unfold Transaction.constrained
  rw [hfits, hunknown]
  cases fits : fitsWord n with
  | false => exact ⟨_, rfl, rfl⟩
  | true =>
    cases known : now.isNaN with
    | true => exact ⟨_, rfl, rfl⟩
    | false => exact absurd ⟨fits, known⟩ unfit

/-- What is reported of a transaction is never that its caller was at fault. -/
theorem kind_of_reports {τ : Type} [Delay τ] {c : Config τ} {f g : Failure}
    (reported : c.Reports g f)
    (foreign : g.complaint? = none) (x : Complaint) (hf : f = .complaint x) :
    x.kind ≠ .validation := by
  subst hf
  cases reported with
  | same => cases foreign
  | complaint g x mild =>
    intro family
    have hown : (x.kind == .validation) = false := (Bool.or_eq_false_iff.1 mild).1
    rw [family] at hown
    cases hown

section
variable {h : Station Number σ} {audience : σ → List ListenerId} {c : Config Number} {s : σ}
  {v key value policy : Value} {k : Key} {o : Policy}

theorem stamps_put (steady : h.Steady audience) (time : v.IsTime) {p : Json}
    (hkey : Arguments.key key "put" = .ok k)
    (hpolicy : Arguments.policy policy "put" (some k) = .ok o)
    (hpayload : Arguments.payload c.allowNull k value "put" = .ok p) :
    Stamps h c s "put" (.put key value v policy) v k .nothing (.document p) := by
  have httl : Arguments.ttlOr c.defaultTtl v "put" (some k) =
      (Arguments.ttl v "put" (some k)).map some := by
    rcases time with ⟨n, rfl⟩ | ⟨x, rfl⟩ | ⟨d, rfl⟩ <;> rfl
  have hwritten {n : Int} (whole : Arguments.ttl v "put" (some k) = .ok n) :
      Arguments.written c "put" key value v policy = .ok ⟨k, some n, o, p⟩ :=
    Arguments.written_of hkey (by rw [httl, whole]; rfl) hpolicy hpayload
  have hstamped (n : Int) := constrained_stamped (n := n)
    (r := Written.row ⟨k, some n, o, p⟩ (h.clock s)) rfl rfl rfl
  have hsettled := steady.settled c (.put key value v policy) s
  constructor
  · intro f fails
    refine hsettled.put_refused ?_
    unfold Arguments.written
    rw [hkey]
    show (Arguments.ttlOr c.defaultTtl v "put" (some k) >>= _) = _
    rw [httl, fails]
    rfl
  · intro n whole fits known
    obtain ⟨hanswer, hleft⟩ := hsettled.put_received (hwritten whole) ((hstamped n).1 fits known)
    refine ⟨hanswer, Written.row ⟨k, some n, o, p⟩ (h.clock s), o, ?_, ?_, rfl⟩
    · rw [hleft]
      exact Table.find?_insert_self _ _ _
    · show Lifetime.mk _ _ _ (Policy.ofStored o.word) = _
      rw [Policy.ofStored_word]
      rfl
  · intro n whole unfit
    obtain ⟨g, hrefused, foreign⟩ := (hstamped n).2 unfit
    have hcommit : (Transaction.write [(k.text, Written.row ⟨k, some n, o, p⟩ (h.clock s))]).commit
        (h.desk s).table = .error g := by
      rw [Transaction.commit_eq]
      simp only [Transaction.firstOn, Transaction.writeRows, hrefused]
      rfl
    obtain ⟨f, hanswer, reported⟩ := steady.put_fails (c := c) (hwritten whole) hcommit
    exact ⟨f, hanswer, kind_of_reports reported foreign⟩

/-- A renewal stamps the entry of its key, if it is live. -/
theorem stamps_refreshTtl (steady : h.Steady audience) (time : v.IsTime) {old : Row Number}
    (hkey : Arguments.key key "refresh_ttl" = .ok k)
    (hpolicy : Arguments.policy policy "refresh_ttl" (some k) = .ok o)
    (found : (h.desk s).table.find? k.text = some old)
    (live : (Condition.live old (h.clock s)).holds = true) :
    Stamps h c s "refresh_ttl" (.refreshTtl key v policy) v k (.bool true) old.payload := by
  have httl : Arguments.ttlGiven v "refresh_ttl" (some k) =
      Arguments.ttl v "refresh_ttl" (some k) := by
    rcases time with ⟨n, rfl⟩ | ⟨x, rfl⟩ | ⟨d, rfl⟩ <;> rfl
  have hrenewal {n : Int} (whole : Arguments.ttl v "refresh_ttl" (some k) = .ok n) :
      Arguments.renewal key v policy = .ok ⟨k, n, o⟩ := by
    unfold Arguments.renewal
    rw [hkey]
    show (Arguments.ttlGiven v "refresh_ttl" (some k) >>= _) = _
    rw [httl, whole]
    show (Arguments.policy policy "refresh_ttl" (some k) >>= _) = _
    rw [hpolicy]
    rfl
  have hstamped (n : Int) := constrained_stamped (n := n)
    (r := Transaction.renewed old n o (h.clock s)) rfl rfl rfl
  have hsettled := steady.settled c (.refreshTtl key v policy) s
  constructor
  · intro f fails
    refine hsettled.refreshTtl_refused ?_
    unfold Arguments.renewal
    rw [hkey]
    show (Arguments.ttlGiven v "refresh_ttl" (some k) >>= _) = _
    rw [httl, fails]
    rfl
  · intro n whole fits known
    obtain ⟨hanswer, hleft⟩ := hsettled.refreshTtl_renewed (hrenewal whole) fits found live
      ((hstamped n).1 fits known)
    refine ⟨hanswer, Transaction.renewed old n o (h.clock s), o, ?_, ?_, rfl⟩
    · rw [hleft]
      exact Table.find?_insert_self _ _ _
    · show Lifetime.mk _ _ _ (Policy.ofStored o.word) = _
      rw [Policy.ofStored_word]
      rfl
  · intro n whole unfit
    obtain ⟨g, hrefused, foreign⟩ : ∃ g, (Transaction.extend k.text n o (h.clock s)).commit
        (h.desk s).table = .error g ∧ g.complaint? = none := by
      cases fits : fitsWord n with
      | false => exact ⟨_, Transaction.commit_extend_unfit fits, rfl⟩
      | true =>
        obtain ⟨g, hrefused, foreign⟩ := (hstamped n).2 unfit
        exact ⟨g, Transaction.commit_extend_refused fits found live hrefused, foreign⟩
    obtain ⟨f, hanswer, reported⟩ := steady.refreshTtl_fails (c := c) (hrenewal whole) hrefused
    exact ⟨f, hanswer, kind_of_reports reported foreign⟩

end

end Station

end ExpiringStore
