import ExpiringStore.Proofs.Call.Account
import ExpiringStore.Proofs.Call.Reads

/-!
# Reads account for themselves

Each read keeps its books by the rule and ends, wherever it ends, as its account says or for a
trouble with the storage.

    Keeps c (get key …) (Operation.get c key …)      (keeps_get)
-/

namespace ExpiringStore

variable {τ : Type}

namespace Call

theorem vetted_ok {α : Type} {x : Except Failure α} {a : α} (h : x = .ok a) {t : Trail τ}
    {r : Except Failure Answer} {rest : α → Prop} (hr : rest a) : Vetted x t r rest := by
  subst h
  exact hr

theorem vetted_error {α : Type} {x : Except Failure α} {f : Failure} (h : x = .error f)
    {rest : α → Prop} : Vetted x ({} : Trail τ) (.error f) rest := by
  subst h
  exact ⟨rfl, rfl⟩

/-- A call that does not fail had its arguments accepted. -/
theorem vetted_of_ok {α : Type} {x : Except Failure α} {t : Trail τ} {a : Answer} {rest : α → Prop}
    (h : Vetted x t (.ok a) rest) : ∃ w, x = .ok w ∧ rest w := by
  cases x with
  | ok w => exact ⟨w, rfl, h⟩
  | error f => cases h.2

end Call

namespace Operation

open Call

variable [Instant τ] [Delay τ]

/-- From nothing on, an operation accounts for itself as its call, its result being the answer. -/
def Keeps {α : Type} (c : Config τ) (call : Call) (answer : α → Answer) (x : Operation τ α) :
    Prop :=
  Traces Books (fun t a => Concludes c call t (.ok (answer a)))
    (fun t f => Concludes c call t (.error f)) x {}

/-! ## Steps that a call takes

Where one of these steps fails, nothing has been done before, and that is an end as it should be.
What is left to show is about what comes after the step. -/

section
variable {c : Config τ} {call : Call} {α : Type} {ok : Trail τ → α → Prop} {ms : List (Mark τ)}

omit [Instant τ] [Delay τ] in
theorem traces_checked {β : Type} {books : List (Mark τ) → Bookkeeping τ → Prop}
    {bad : Trail τ → Failure → Prop} {t : Trail τ} {x : Except Failure β} {f : β → Operation τ α}
    (hok : ∀ b, x = .ok b → Traces books ok bad (f b) t) (hbad : ∀ e, x = .error e → bad t e) :
    Traces books ok bad (ofExcept x >>= f) t := by
  rw [traces_bind, traces_ofExcept]
  cases x with
  | ok a => exact hok a rfl
  | error e => exact hbad e rfl

theorem failed_idle {a : Transaction τ} (idle : ms.all Mark.isIdle = true)
    (made : call.Makes c (ms.filterMap Mark.deed?) a) (strict : a.isCourtesy = false) :
    Failed c (fun t f => Concludes c call t (.error f)) ms a := by
  rintro t f g rfl hmet hreported
  refine .inl ⟨f, rfl, idle, .attempt hmet made hreported fun h => ?_⟩
  cases strict.symm.trans h

theorem marked_started {x : Operation τ α} (idle : ms.all Mark.isIdle = true)
    (h : Marked Books ok (fun t f => Concludes c call t (.error f)) x ms) :
    Marked Books ok (fun t f => Concludes c call t (.error f)) (startup c >>= fun _ => x) ms := by
  refine marked_bind (marked_startup c h ?_)
  rintro t f g rfl hmet hown
  exact .inl ⟨f, rfl, idle, .engine hmet hown⟩

theorem marked_clocked {f : τ → Operation τ α} (idle : ms.all Mark.isIdle = true)
    (h : ∀ now, Marked Books ok (fun t f => Concludes c call t (.error f)) (f now)
      (ms ++ [.read now])) :
    Marked Books ok (fun t f => Concludes c call t (.error f)) (readClock >>= f) ms := by
  refine marked_bind (marked_readClock h ?_)
  rintro t f rfl hmet
  exact .inl ⟨f, rfl, idle, .clock hmet⟩

theorem marked_transacted (c : Config τ) {a : Transaction τ} {operation : String} {key : Option Key}
    {f : a.Reply → Operation τ α} (idle : ms.all Mark.isIdle = true)
    (made : call.Makes c (ms.filterMap Mark.deed?) a) (strict : a.isCourtesy = false)
    (h : ∀ r, Marked Books ok (fun t f => Concludes c call t (.error f)) (f r)
      (ms ++ [.committed a r])) :
    Marked Books ok (fun t f => Concludes c call t (.error f))
      (transact c operation a key >>= f) ms :=
  marked_bind (marked_transact c operation key h (failed_idle idle made strict))

end

section
variable {c : Config τ} {α : Type} {ok : Trail τ → α → Prop} {bad : Trail τ → Failure → Prop}
  {ms : List (Mark τ)}

omit [Instant τ] [Delay τ] in
theorem marked_noted {b : Bookkeeping τ} {x : Operation τ α} (order : Books ms b)
    (h : Marked Books ok bad x (ms ++ [.noted b])) :
    Marked Books ok bad (bookkeep b >>= fun _ => x) ms := marked_bind (marked_bookkeep order h)

omit [Instant τ] [Delay τ] in
theorem marked_logged {entry : Log.Entry} {x : Operation τ α} (h : Marked Books ok bad x ms) :
    Marked Books ok bad (log entry >>= fun _ => x) ms := marked_bind (marked_log h)

end

theorem keeps_containsKey (c : Config τ) (key : Value) :
    Keeps c (.containsKey key) .bool (containsKey c key) := by
  unfold Keeps containsKey
  refine traces_checked (fun k hk => ?_) fun f hf => .inr (vetted_error hf)
  refine marked_started rfl ?_ {} rfl
  refine marked_clocked rfl fun now => ?_
  refine marked_transact (a := .isLive k.text now) c _ _ (fun b t ht => ?_)
    (failed_idle rfl (.containsKey hk (by simp [Mark.deed?])) rfl)
  exact .inr (vetted_ok hk ⟨now, b, ht, rfl⟩)

/-! ## Lookups -/

section
variable {c : Config τ} {ok : Trail τ → Unit → Prop} {bad : Trail τ → Failure → Prop}
  {ms : List (Mark τ)}

/-- A removal that does not succeed is not told from one that finds nothing. -/
theorem marked_removeExpiredKey (key : Key) (now : τ)
    (hok : ∀ swept t, Swept key now t.troubles swept → t.marks = ms ++ swept → ok t ())
    (hbad : ∀ t f g, t.marks = ms → .attempt (.removeExpiredKey key.text now) g ∈ t.troubles →
      c.Reports g f → f.complaint? = none → bad t f) :
    Marked Books ok bad (removeExpiredKey c key now) ms := by
  unfold removeExpiredKey
  refine marked_bind (marked_bestEffort _ _ ?_)
  refine marked_transact (a := .removeExpiredKey key.text now) c _ _ (fun removed t ht => ?_) ?_
  · cases removed with
    | true => exact ⟨trivial, fun _ => hok _ (t.mark _) .removed (by simp [ht])⟩
    | false => exact hok _ t .gone ht
  · intro t f g ht hmet hreported
    refine ⟨hbad t f g ht hmet hreported, fun _ => ?_⟩
    exact hok [] t.aside (.missed g hmet) (by simp [ht])

theorem marked_touch {row : Row τ} {refresh : Bool} (key : Key) (now : τ)
    (slides : (refresh && row.slides) = true)
    (hok : ∀ touched t, Touched key refresh row now t.troubles touched →
      t.marks = ms ++ touched → ok t ())
    (hbad : ∀ t f g, t.marks = ms → .attempt (.touch key.text now) g ∈ t.troubles →
      c.Reports g f → f.complaint? = none → bad t f) :
    Marked Books ok bad (touch c key now) ms := by
  unfold touch
  refine marked_discard (marked_bestEffort _ _ ?_)
  refine marked_transact (a := .touch key.text now) c _ _ (fun _ t ht => ?_) ?_
  · exact hok _ t (.moved slides) ht
  · intro t f g ht hmet hreported
    refine ⟨hbad t f g ht hmet hreported, fun _ => ?_⟩
    exact hok [] t.aside (.missed slides g hmet) (by simp [ht])

omit [Instant τ] [Delay τ] in
/-- A found payload is decoded, and then the hit is counted. -/
theorem traces_hit {ok : Trail τ → Lookup → Prop} {t : Trail τ} (payload : Value)
    (target : Option Target) (key : Key)
    (hok : ∀ v, Payload.decode payload target (some key) = .ok v →
      ok (t.mark (.noted (.record .hits 1))).aside (.ofDecoded v))
    (hbad : ∀ f, Payload.decode payload target (some key) = .error f → bad t f) :
    Traces Books ok bad (do
      let value ← ofExcept (Payload.decode payload target (some key))
      bookkeep (.record .hits 1)
      logLookup "get" key true
      return .ofDecoded value) t := by
  refine traces_checked (fun v hv => ?_) hbad
  exact ⟨trivial, fun _ => ⟨trivial, fun _ => hok v hv⟩⟩

end

theorem keeps_get (c : Config τ) (key : Value) (refresh : Bool) (target : Option Target) :
    Keeps c (.get key refresh target) .lookup (get c key refresh target) := by
  unfold Keeps get
  refine traces_checked (fun k hk => ?_) fun f hf => .inr (vetted_error hf)
  refine marked_started rfl ?_ {} rfl
  refine marked_transacted (a := .fetch k.text) c rfl (.lookUp hk) rfl fun found => ?_
  cases found with
  | none =>
    refine marked_noted trivial (marked_logged fun t ht => ?_)
    exact .inr (vetted_ok hk (.missing ht))
  | some row =>
    refine marked_clocked rfl fun now => ?_
    refine marked_bind (marked_reportPolicy _ _ ?_)
    show Marked Books _ _ _ [.committed (.fetch k.text) (some row), .read now]
    have hfetched : ∀ t : Trail τ,
        t.marks = [.committed (.fetch k.text) (some row), .read now] →
        t.deeds = [.committed (.fetch k.text) (some row), .read now] := by
      intro t ht
      simp [Trail.deeds, ht, Mark.deed?]
    split
    · next dead =>
      refine marked_bind (marked_removeExpiredKey k now (fun swept t hswept ht => ?_) ?_)
      · refine ⟨trivial, fun _ => ⟨trivial, fun _ => ?_⟩⟩
        exact .inr (vetted_ok hk (.expired dead hswept (by rw [← ht]; rfl)))
      · intro t f g ht hmet hreported hnone
        refine .inl ⟨f, rfl, by simp [ht, Mark.isIdle, Transaction.isQuiet], ?_⟩
        refine .attempt hmet ?_ hreported fun _ => hnone
        rw [hfetched t ht]
        exact .expire hk (by simp) (by simp) dead
    · next live =>
      replace live : row.isExpired now = false := by simpa using live
      -- However the trail looks after the refresh, decoding and counting are the same.
      have hrest : ∀ (t : Trail τ) touched, Touched k refresh row now t.troubles touched →
          t.marks = [.committed (.fetch k.text) (some row), .read now] ++ touched →
          Traces Books
            (fun t a => Concludes c (.get key refresh target) t (.ok (.lookup a)))
            (fun t f => Concludes c (.get key refresh target) t (.error f)) (do
              let value ← ofExcept (Payload.decode row.payload.value target (some k))
              bookkeep (.record .hits 1)
              logLookup "get" k true
              return .ofDecoded value) t := by
        intro t touched htouched ht
        refine traces_hit _ _ _ (fun v hv => ?_) (fun f hf => ?_)
        · exact .inr (vetted_ok hk (.found live htouched hv (by rw [← ht]; rfl)))
        · exact .inr (vetted_ok hk (.undecodable live htouched hf ht))
      split
      · next slides =>
        replace slides : (refresh && row.slides) = true := by
          simpa [Row.slides, Bool.and_assoc] using slides
        refine marked_bind (marked_touch k now slides
          (fun touched t htouched ht => hrest t touched htouched ht) ?_)
        intro t f g ht hmet hreported hnone
        refine .inl ⟨f, rfl, by simp [ht, Mark.isIdle, Transaction.isQuiet], ?_⟩
        refine .attempt hmet ?_ hreported fun _ => hnone
        rw [hfetched t ht]
        exact .touch hk (by simp) (by simp) live slides
      · next still =>
        replace still : (refresh && row.slides) = false := by
          simpa [Row.slides, Bool.and_assoc] using still
        exact fun t ht => hrest t [] (.still still) (by simp [ht])

/-! ## Many keys -/

section
variable {ok : Trail τ → List (String × Value) → Prop} {bad : Trail τ → Failure → Prop}
  {ms : List (Mark τ)}

omit [Delay τ] in
/-- Decoding leaves no mark.  The induction is on the rows; what is done with the values of the
first rows is put off until the others are decoded. -/
theorem marked_decodeLive (target : Option Target) (now : τ) (rows : List (String × Row τ))
    (hok : ∀ found t, liveValues target now rows = .ok found → t.marks = ms → ok t found)
    (hbad : ∀ f t, liveValues target now rows = .error f → t.marks = ms → bad t f) :
    Marked Books ok bad (decodeLive target now rows) ms := by
  induction rows generalizing ok with
  | nil => exact fun t ht => hok [] t rfl ht
  | cons q rest ih =>
    obtain ⟨key, row⟩ := q
    unfold decodeLive
    unfold liveValues at hok hbad
    refine marked_bind (marked_reportPolicy _ _ ?_)
    split
    · next dead =>
      rw [if_pos dead] at hok hbad
      exact ih hok hbad
    · next live =>
      rw [if_neg live] at hok hbad
      refine fun t ht => traces_checked (fun v hv => ?_) fun f hf => hbad f t (by rw [hf]; rfl) ht
      rw [hv] at hok hbad
      refine marked_bind (ih (fun found t hfound ht => ?_)
        (fun f t hf => hbad f t (by rw [hf]; rfl))) t ht
      rw [hfound] at hok
      exact hok _ t rfl ht

end

omit [Instant τ] [Delay τ] in
/-- Each of the two counters is noted only if there is something to count. -/
theorem marked_tallied {α : Type} {ok : Trail τ → α → Prop} {bad : Trail τ → Failure → Prop}
    {ms : List (Mark τ)} (asked found : Nat) {x : Operation τ α}
    (h : Marked Books ok bad x (ms ++ tallied asked found)) : Marked Books ok bad (do
      if found != 0 then bookkeep (.record .hits found)
      if found != asked then bookkeep (.record .misses ((asked : Int) - found))
      x) ms := by
  have hmisses : ∀ ms : List (Mark τ), Marked Books ok bad x (ms ++
        if found = asked then [] else [.noted (.record .misses ((asked : Int) - found))]) →
      Marked Books ok bad (do
        if found != asked then bookkeep (.record .misses ((asked : Int) - found))
        x) ms := by
    intro ms h
    dsimp only
    split
    · next hne =>
      rw [if_neg (by simpa using hne)] at h
      exact marked_noted trivial h
    · next heq =>
      rw [if_pos (by simpa using heq), List.append_nil] at h
      exact h
  unfold tallied at h
  rw [← List.append_assoc] at h
  dsimp only
  split
  · next hne =>
    rw [if_neg (by simpa using hne)] at h
    exact marked_noted trivial (hmisses _ h)
  · next heq =>
    rw [if_pos (by simpa using heq), List.append_nil] at h
    exact hmisses _ h

theorem keeps_getAll (c : Config τ) (keys : Value) (target : Option Target) :
    Keeps c (.getAll keys target) .found (getAll c keys target) := by
  unfold Keeps getAll
  refine traces_checked (fun ks hks => ?_) fun f hf => .inr (vetted_error hf)
  split
  · next hempty =>
    refine .inr (vetted_ok hks ?_)
    rw [if_pos hempty]
    exact ⟨rfl, rfl⟩
  · next hsome =>
    refine marked_started rfl ?_ {} rfl
    refine marked_transacted (a := .fetchMany (ks.map (·.text))) c ?_ ?_ rfl fun rows => ?_
    · rfl
    · exact .getAll hks
    refine marked_clocked rfl fun now => ?_
    refine marked_bind (marked_decodeLive target now rows (fun found t hfound ht => ?_) ?_)
    · refine marked_tallied ks.length found.length (marked_logged fun t ht => ?_) t ht
      refine .inr (vetted_ok hks ?_)
      rw [if_neg hsome]
      refine ⟨rows, now, ?_⟩
      rw [hfound]
      exact ⟨rfl, ht⟩
    · intro f t hf ht
      refine .inr (vetted_ok hks ?_)
      rw [if_neg hsome]
      refine ⟨rows, now, ?_⟩
      rw [hf]
      exact ⟨rfl, ht⟩

/-! ## Listings -/

/-- A listing ends as a listing does, whichever call it serves. -/
theorem keeps_listing (c : Config τ) (call : Call) (pattern : Value)
    (hmakes : ∀ g now deeds, Arguments.pattern pattern "get_keys" = .ok g → .read now ∈ deeds →
      Makes c call deeds (.liveKeys (likeOfGlob g) now))
    (hends : ∀ g t r, Arguments.pattern pattern "get_keys" = .ok g → Lists g t r →
      Accounts c call t r)
    (hrefused : ∀ f, Arguments.pattern pattern "get_keys" = .error f →
      Accounts c call {} (.error f)) :
    Keeps c call .texts (getKeys c pattern) := by
  unfold Keeps getKeys
  refine traces_checked (fun g hg => ?_) fun f hf => .inr (hrefused f hf)
  refine marked_started rfl ?_ {} rfl
  refine marked_clocked rfl fun now => ?_
  refine marked_transact (a := .liveKeys (likeOfGlob g) now) c _ _ (fun keys t ht => ?_) ?_
  · exact .inr (hends g t _ hg ⟨now, keys, ht, rfl⟩)
  · exact failed_idle rfl (hmakes g now _ hg (by simp [Mark.deed?])) rfl

theorem keeps_getKeys (c : Config τ) (pattern : Value) :
    Keeps c (.getKeys pattern) .texts (getKeys c pattern) :=
  keeps_listing c _ pattern (fun _ _ _ hg hm => .getKeys hg hm)
    (fun _ _ _ hg h => vetted_ok hg h) fun _ hf => vetted_error hf

theorem keeps_getAllKeys (c : Config τ) : Keeps c .getAllKeys .texts (getAllKeys c) := by
  have every : Arguments.pattern (.str "*") "get_keys" = .ok "*" := rfl
  refine keeps_listing c _ (.str "*") (fun g now _ hg hm => ?_) (fun g _ _ hg h => ?_)
    fun f hf => ?_
  · obtain rfl := Except.ok.inj (every.symm.trans hg)
    exact .getAllKeys hm
  · obtain rfl := Except.ok.inj (every.symm.trans hg)
    exact h
  · cases every.symm.trans hf

/-- A size is counted anew after the clock was read and the last count recalled. -/
theorem marked_recount (c : Config τ) (now : τ) (m₀ : SizeMemo τ)
    (stale : ∀ n at', m₀.counted = some (n, at') →
      Instant.before (Instant.minus now at') c.sizeWindow = false) :
    Marked Books (fun t n => Concludes c .size t (.ok (.count n)))
      (fun t f => Concludes c .size t (.error f)) (size.recount c now)
      [.read now, .recalled m₀] := by
  unfold size.recount
  refine marked_started rfl ?_
  refine marked_bind (marked_recallSize fun m => ?_)
  refine marked_transacted (a := .countLive now) c rfl (.size (by simp [Mark.deed?])) rfl
    fun n => ?_
  refine marked_noted ⟨m₀, m, rfl, rfl⟩ (marked_logged fun t ht => ?_)
  exact .inr (.counted stale ht)

theorem keeps_size (c : Config τ) : Keeps c .size .count (size c) := by
  unfold Keeps size
  refine marked_clocked rfl (fun now => ?_) {} rfl
  refine marked_bind (marked_recallSize fun m => ?_)
  split
  · next n at' hcounted =>
    split
    · next fresh =>
      exact marked_logged fun t ht => .inr (.recalled hcounted fresh ht)
    · next stale =>
      refine marked_recount c now m fun n' at'' h => ?_
      obtain ⟨-, rfl⟩ := Prod.mk.inj (Option.some.inj (hcounted.symm.trans h))
      simpa using stale
  · next hnone =>
    refine marked_recount c now m fun n' at' h => ?_
    cases hnone.symm.trans h

/-! ## Questions about the row of a key -/

/-- The search for a live row fetches the row and reads the clock if there is one. -/
theorem marked_fetchLive {call : Call} {ok : Trail τ → Option (Row τ) → Prop} (c : Config τ)
    (k : Key) (operation : String) (made : Makes c call [] (.fetch k.text))
    (hok : ∀ deeds found t, FetchedLive k.text deeds found → t.marks = deeds.map Deed.mark →
      ok t found) :
    Marked Books ok (fun t f => Concludes c call t (.error f)) (fetchLive c k operation) [] := by
  unfold fetchLive
  refine marked_transacted (a := .fetch k.text) c rfl made rfl fun found => ?_
  cases found with
  | none => exact fun t ht => hok _ none t .missing ht
  | some row =>
    refine marked_bind (marked_reportPolicy _ _ ?_)
    refine marked_clocked rfl fun now t ht => ?_
    cases he : row.isExpired now with
    | true => exact hok _ none t (.expired row now he) ht
    | false => exact hok _ (some row) t (.live row now he) ht

omit [Instant τ] [Delay τ] in
theorem all_isIdle_fetchedLive [Instant τ] {k : String} {deeds : List (Deed τ)}
    {found : Option (Row τ)} (h : FetchedLive k deeds found) :
    (deeds.map Deed.mark).all Mark.isIdle = true := by
  cases h <;> rfl

theorem keeps_getRemainingTtl (c : Config τ) (key : Value) :
    Keeps c (.getRemainingTtl key) (.optional .duration) (getRemainingTtl c key) := by
  unfold Keeps getRemainingTtl
  refine traces_checked (fun k hk => ?_) fun f hf => .inr (vetted_error hf)
  refine marked_started rfl ?_ {} rfl
  refine marked_bind (marked_fetchLive c k _ (.getRemainingTtl hk) fun deeds found t h ht => ?_)
  cases found with
  | none => exact .inr (vetted_ok hk (.inl ⟨deeds, h, ht, rfl⟩))
  | some row =>
    refine marked_clocked (all_isIdle_fetchedLive h) (fun now t ht => ?_) t ht
    have hend : ∀ r, r = ((row.lifetime.remainingDuration now).mapError .duration).map
        (.optional .duration) → Concludes c (.getRemainingTtl key) t r :=
      fun r hr => .inr (vetted_ok hk (.inr ⟨row, deeds, now, h, ht, hr⟩))
    rw [traces_ofExcept]
    cases hr : (row.lifetime.remainingDuration now).mapError Failure.duration with
    | ok d => exact hend _ (by rw [hr]; rfl)
    | error f => exact hend _ (by rw [hr]; rfl)

theorem keeps_getTtlPolicy (c : Config τ) (key : Value) :
    Keeps c (.getTtlPolicy key) (.optional Policy.toValue) (getTtlPolicy c key) := by
  unfold Keeps getTtlPolicy
  refine traces_checked (fun k hk => ?_) fun f hf => .inr (vetted_error hf)
  refine marked_started rfl ?_ {} rfl
  refine marked_bind (marked_fetchLive c k _ (.getTtlPolicy hk) fun deeds found t h ht => ?_)
  cases found with
  | none => exact .inr (vetted_ok hk ⟨deeds, none, h, ht, rfl⟩)
  | some row =>
    refine marked_bind (marked_reportPolicy _ _ fun t ht => ?_) t ht
    exact .inr (vetted_ok hk ⟨deeds, some row, h, ht, rfl⟩)

end Operation

end ExpiringStore
