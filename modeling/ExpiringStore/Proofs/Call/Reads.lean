import ExpiringStore.Proofs.Call.Contract
import ExpiringStore.Proofs.Program.Parts

/-!
# Reads do what they may

Each read attempts only what its call may make and, if no step of the storage failed or it succeeds
all the same, ends as its call does.

    Serves c (get key …) (Operation.get c key …)      (serves_get)
-/

namespace ExpiringStore

variable {τ : Type}

namespace Call

theorem checked_ok {α : Type} {x : Except Failure α} {a : α} (h : x = .ok a)
    {deeds : List (Deed τ)} {r : Except Failure Answer} {rest : α → Prop} (hr : rest a) :
    Checked x deeds r rest := by
  subst h
  exact hr

theorem checked_error {α : Type} {x : Except Failure α} {f : Failure} (h : x = .error f)
    {rest : α → Prop} : Checked x ([] : List (Deed τ)) (.error f) rest := by
  subst h
  exact ⟨rfl, rfl⟩

variable [Instant τ]

/-- Does a call go on when a transaction that it attempts is not carried out? -/
def isLookup : Call → Bool
  | .get _ _ _ => true
  | _ => false

/-- The end of a call is as it should be if no step of the storage failed.  So is the end of a call
that succeeds all the same, unless it is a lookup, which may go without its last transaction. -/
def EndsSo (c : Config τ) (call : Call) (p : Past τ) (r : Except Failure Answer) : Prop :=
  p.smooth = true ∨ (call.isLookup = false ∧ r.isOk = true) → Ends c call p.deeds r

theorem endsSo_spoiled {c : Config τ} {call : Call} (p : Past τ) (f : Failure) :
    EndsSo c call p.spoiled (.error f) := by
  rintro (h | ⟨-, h⟩)
  · cases h
  · cases h

theorem endsSo_get_spoiled {c : Config τ} {key : Value} {refresh : Bool} {target : Option Target}
    (p : Past τ) (r : Except Failure Answer) : EndsSo c (.get key refresh target) p.spoiled r := by
  rintro (h | ⟨h, -⟩)
  · cases h
  · cases h

end Call

namespace Operation

open Call

theorem follows_checked {α β : Type} {permits : List (Deed τ) → Transaction τ → Prop} {p : Past τ}
    {ok : Past τ → β → Prop} {bad : Past τ → Failure → Prop} {x : Except Failure α}
    {f : α → Operation τ β} (hok : ∀ a, x = .ok a → Follows permits ok bad (f a) p)
    (hbad : ∀ e, x = .error e → bad p e) : Follows permits ok bad (ofExcept x >>= f) p := by
  rw [follows_bind, follows_ofExcept]
  cases x with
  | ok a => exact hok a rfl
  | error e => exact hbad e rfl

variable [Instant τ] [Delay τ]

/-- From nothing on, an operation does what its call may do, its result being the answer. -/
def Serves {α : Type} (c : Config τ) (call : Call) (answer : α → Answer) (x : Operation τ α) :
    Prop :=
  Follows (Makes c call) (fun p a => EndsSo c call p (.ok (answer a)))
    (fun p f => EndsSo c call p (.error f)) x {}

/-! ## Steps that a call takes

Where one of these steps fails, the call fails in a spoiled past, and that is an end as it should
be.  What is left to show is about what comes after the step. -/

section
variable {permits : List (Deed τ) → Transaction τ → Prop} {p : Past τ} {call : Call} {α : Type}
  {ok : Past τ → α → Prop}

omit [Delay τ] in
theorem follows_started (c : Config τ) {x : Operation τ α}
    (h : Follows permits ok (fun p f => EndsSo c call p (.error f)) x p) :
    Follows permits ok (fun p f => EndsSo c call p (.error f)) (startup c >>= fun _ => x) p := by
  rw [follows_bind]
  exact follows_startup c h fun _ => endsSo_spoiled _ _

omit [Delay τ] in
theorem follows_clocked {c : Config τ} {f : τ → Operation τ α} (h : ∀ now,
      Follows permits ok (fun p f => EndsSo c call p (.error f)) (f now) (p.add (.read now))) :
    Follows permits ok (fun p f => EndsSo c call p (.error f)) (readClock >>= f) p := by
  rw [follows_bind, follows_readClock]
  exact ⟨h, fun _ => endsSo_spoiled _ _⟩

theorem follows_transacted (c : Config τ) {a : Transaction τ} {operation : String}
    {key : Option Key} {f : a.Reply → Operation τ α} (hp : permits p.deeds a)
    (h : ∀ b r, Follows permits ok (fun p f => EndsSo c call p (.error f)) (f r)
      ⟨p.deeds ++ [.committed a r], b⟩) :
    Follows permits ok (fun p f => EndsSo c call p (.error f))
      (transact c operation a key >>= f) p := by
  rw [follows_bind]
  exact follows_transact c operation key hp h fun _ => endsSo_spoiled _ _

end

theorem serves_containsKey (c : Config τ) (key : Value) :
    Serves c (.containsKey key) .bool (containsKey c key) := by
  unfold Serves containsKey
  refine follows_checked (fun k hk => ?_) (fun f hf _ => checked_error hf)
  refine follows_started c ?_
  refine follows_clocked fun now => ?_
  refine follows_transact (a := .isLive k.text now) c _ _ ?_ (fun _ b _ => ?_) fun _ =>
    endsSo_spoiled _ _
  · exact .containsKey hk (by simp)
  · exact checked_ok hk ⟨now, b, rfl, rfl⟩

/-! ## Lookups -/

section
variable {permits : List (Deed τ) → Transaction τ → Prop} {p : Past τ} {ok : Past τ → Unit → Prop}
  {bad : Past τ → Failure → Prop}

/-- A removal that does not succeed is not told from one that finds nothing. -/
theorem follows_removeExpiredKey (c : Config τ) (key : Key) (now : τ)
    (hp : permits p.deeds (.removeExpiredKey key.text now))
    (hok : ∀ b removed, ok ⟨p.deeds ++ [.committed (.removeExpiredKey key.text now) removed], b⟩ ())
    (hspoiled : ok p.spoiled ()) (hbad : ∀ f, bad p.spoiled f) :
    Follows permits ok bad (removeExpiredKey c key now) p := by
  unfold removeExpiredKey
  rw [follows_bind]
  refine follows_bestEffort _ _ ?_
  refine follows_transact (a := .removeExpiredKey key.text now) c _ _ hp (fun b removed => ?_)
    fun f => ⟨?_, hbad f⟩
  · split
    · exact (follows_bookkeep _).2 (hok b removed)
    · exact hok b removed
  · exact hspoiled

theorem follows_touch (c : Config τ) (key : Key) (now : τ)
    (hp : permits p.deeds (.touch key.text now))
    (hok : ∀ b, ok ⟨p.deeds ++ [.committed (.touch key.text now) ()], b⟩ ())
    (hspoiled : ok p.spoiled ()) (hbad : ∀ f, bad p.spoiled f) :
    Follows permits ok bad (touch c key now) p := by
  unfold touch
  rw [follows_discard]
  refine follows_bestEffort _ _ ?_
  exact follows_transact (a := .touch key.text now) c _ _ hp (fun b _ => hok b)
    fun f => ⟨hspoiled, hbad f⟩

omit [Instant τ] [Delay τ] in
theorem follows_hit {ok : Past τ → Lookup → Prop} (payload : Value) (target : Option Target)
    (key : Key) (hok : ∀ v, Payload.decode payload target (some key) = .ok v → ok p (.ofDecoded v))
    (hbad : ∀ f, Payload.decode payload target (some key) = .error f → bad p f) :
    Follows permits ok bad (do
      let value ← ofExcept (Payload.decode payload target (some key))
      bookkeep (.record .hits 1)
      logLookup "get" key true
      return .ofDecoded value) p := by
  refine follows_checked (fun v hv => ?_) hbad
  simp only [follows_bind, follows_bookkeep]
  exact follows_logLookup _ _ _ _ (hok v hv)

end

theorem serves_get (c : Config τ) (key : Value) (refresh : Bool) (target : Option Target) :
    Serves c (.get key refresh target) .lookup (get c key refresh target) := by
  unfold Serves get
  refine follows_checked (fun k hk => ?_) (fun f hf _ => checked_error hf)
  refine follows_started c ?_
  refine follows_transacted (a := .fetch k.text) c (.lookUp hk) fun _ found => ?_
  cases found with
  | none =>
    simp only [follows_bind, follows_bookkeep]
    exact follows_logLookup _ _ _ _ fun _ => checked_ok hk .missing
  | some row =>
    dsimp only
    refine follows_clocked fun now => ?_
    rw [follows_bind]
    refine follows_reportPolicy _ _ ?_
    split
    · next dead =>
      rw [follows_bind]
      refine follows_removeExpiredKey c k now (.expire hk (by simp) (by simp) dead)
        (fun _ removed => ?_) ?_ fun _ => endsSo_spoiled _ _
      · simp only [follows_bind, follows_bookkeep]
        exact follows_logLookup _ _ _ _ fun _ => checked_ok hk (.expired row now removed dead)
      · simp only [follows_bind, follows_bookkeep]
        exact follows_logLookup _ _ _ _ (endsSo_get_spoiled _ _)
    · next live =>
      replace live : row.isExpired now = false := by simpa using live
      have hend : LookedUp k refresh target _ _ := .live row now live
      -- However the past looks after the touch, decoding and counting are the same.
      have hrest : ∀ p : Past τ, EndsSo c (.get key refresh target) p
            ((Payload.decode row.payload.value target (some k)).map (.lookup ∘ .ofDecoded)) →
          Follows (Makes c (.get key refresh target))
            (fun p a => EndsSo c (.get key refresh target) p (.ok (.lookup a)))
            (fun p f => EndsSo c (.get key refresh target) p (.error f)) (do
              let value ← ofExcept (Payload.decode row.payload.value target (some k))
              bookkeep (.record .hits 1)
              logLookup "get" k true
              return .ofDecoded value) p := by
        intro p hp
        refine follows_hit _ _ _ (fun v hv => ?_) (fun f hf => ?_)
        · rw [hv] at hp
          exact hp
        · rw [hf] at hp
          exact hp
      split
      · next slides =>
        replace slides : (refresh && row.slides) = true := by
          simpa [Row.slides, Bool.and_assoc] using slides
        rw [slides] at hend
        rw [follows_bind]
        exact follows_touch c k now (.touch hk (by simp) (by simp) live slides)
          (fun _ => hrest _ fun _ => checked_ok hk hend) (hrest _ (endsSo_get_spoiled _ _))
          fun _ => endsSo_spoiled _ _
      · next still =>
        replace still : (refresh && row.slides) = false := by
          simpa [Row.slides, Bool.and_assoc] using still
        rw [still] at hend
        exact hrest _ fun _ => checked_ok hk hend

/-! ## Many keys -/

section
variable {permits : List (Deed τ) → Transaction τ → Prop} {p : Past τ}
  {bad : Past τ → Failure → Prop}

omit [Delay τ] in
/-- Decoding concerns neither the clock nor the table.  The induction is on the rows; what is done
with the values of the first rows is put off until the others are decoded. -/
theorem follows_decodeLive (target : Option Target) (now : τ) (rows : List (String × Row τ))
    {ok : Past τ → List (String × Value) → Prop}
    (hok : ∀ found, liveValues target now rows = .ok found → ok p found)
    (hbad : ∀ f, liveValues target now rows = .error f → bad p f) :
    Follows permits ok bad (decodeLive target now rows) p := by
  induction rows generalizing ok with
  | nil => exact hok [] rfl
  | cons q rest ih =>
    obtain ⟨key, row⟩ := q
    unfold decodeLive
    unfold liveValues at hok hbad
    rw [follows_bind]
    refine follows_reportPolicy _ _ ?_
    split
    · next dead =>
      rw [if_pos dead] at hok hbad
      exact ih hok hbad
    · next live =>
      rw [if_neg live] at hok hbad
      refine follows_checked (fun v hv => ?_) (fun f hf => hbad f (by rw [hf]; rfl))
      rw [hv] at hok hbad
      rw [follows_bind]
      refine ih (fun found hfound => ?_) (fun f hf => hbad f (by rw [hf]; rfl))
      rw [hfound] at hok
      exact hok _ rfl

end

theorem serves_getAll (c : Config τ) (keys : Value) (target : Option Target) :
    Serves c (.getAll keys target) .found (getAll c keys target) := by
  unfold Serves getAll
  refine follows_checked (fun ks hks => ?_) (fun f hf _ => checked_error hf)
  split
  · next hempty =>
    refine fun _ => checked_ok hks ?_
    rw [if_pos hempty]
    exact ⟨rfl, rfl⟩
  · next hsome =>
    refine follows_started c ?_
    refine follows_transacted (a := .fetchMany (ks.map (·.text))) c ?_ ?_
    · exact .getAll hks
    · intro b rows
      refine follows_clocked fun now => ?_
      have hend : ∀ r, r = (liveValues target now rows).map (fun found =>
            .found (ks.filterMap fun k => (found.lookup k.text).map (k, ·))) →
          Ends c (.getAll keys target)
            [.committed (.fetchMany (ks.map (·.text))) rows, .read now] r := by
        intro r hr
        refine checked_ok hks ?_
        rw [if_neg hsome]
        exact ⟨rows, now, rfl, hr⟩
      rw [follows_bind]
      refine follows_decodeLive target now rows (fun found hfound => ?_) fun f hf _ =>
        hend _ (by rw [hf]; rfl)
      have hfinish : EndsSo c (.getAll keys target)
          (Past.add ⟨[.committed (.fetchMany (ks.map (·.text))) rows], b⟩ (.read now))
          (.ok (.found (ks.filterMap fun k => (found.lookup k.text).map (k, ·)))) :=
        fun _ => hend _ (by rw [hfound]; rfl)
      dsimp only
      split <;> split <;> simpa using hfinish

/-! ## Listings -/

/-- A listing ends as a listing does, whichever call it serves. -/
theorem follows_getKeys (c : Config τ) (call : Call) (pattern : Value)
    (hmakes : ∀ g now deeds, Arguments.pattern pattern "get_keys" = .ok g → .read now ∈ deeds →
      Makes c call deeds (.liveKeys (likeOfGlob g) now))
    (hends : ∀ g deeds r, Arguments.pattern pattern "get_keys" = .ok g → Listed g deeds r →
      Ends c call deeds r)
    (hrefused : ∀ f, Arguments.pattern pattern "get_keys" = .error f → Ends c call [] (.error f)) :
    Serves c call .texts (getKeys c pattern) := by
  unfold Serves getKeys
  refine follows_checked (fun g hg => ?_) (fun f hf _ => hrefused f hf)
  refine follows_started c ?_
  refine follows_clocked fun now => ?_
  exact follows_transact (a := .liveKeys (likeOfGlob g) now) c _ _ (hmakes g now _ hg (by simp))
    (fun _ keys _ => hends g _ _ hg ⟨now, keys, rfl, rfl⟩) fun _ => endsSo_spoiled _ _

theorem serves_getKeys (c : Config τ) (pattern : Value) :
    Serves c (.getKeys pattern) .texts (getKeys c pattern) :=
  follows_getKeys c _ pattern (fun _ _ _ hg hm => .getKeys hg hm)
    (fun _ _ _ hg h => checked_ok hg h) fun _ hf => checked_error hf

theorem serves_getAllKeys (c : Config τ) : Serves c .getAllKeys .texts (getAllKeys c) := by
  have every : Arguments.pattern (.str "*") "get_keys" = .ok "*" := rfl
  refine follows_getKeys c _ (.str "*") (fun g now _ hg hm => ?_) (fun g _ _ hg h => ?_)
    fun f hf => ?_
  · obtain rfl := Except.ok.inj (every.symm.trans hg)
    exact .getAllKeys hm
  · obtain rfl := Except.ok.inj (every.symm.trans hg)
    exact h
  · cases every.symm.trans hf

theorem serves_size (c : Config τ) : Serves c .size .count (size c) := by
  have hrecount : ∀ now, Follows (Makes c .size) (fun p n => EndsSo c .size p (.ok (.count n)))
      (fun p f => EndsSo c .size p (.error f)) (size.recount c now) ⟨[.read now], true⟩ := by
    intro now
    unfold size.recount
    refine follows_started c ?_
    rw [follows_bind, follows_recallSize]
    intro memo
    refine follows_transacted (a := .countLive now) c (.size (by simp)) fun _ n => ?_
    rw [follows_bind, follows_bookkeep, follows_bind, follows_log]
    exact fun _ => ⟨now, n, .inr rfl, rfl⟩
  unfold Serves size
  refine follows_clocked fun now => ?_
  rw [follows_bind, follows_recallSize]
  intro memo
  split
  · next n at' _ =>
    split
    · rw [follows_bind, follows_log]
      exact fun _ => ⟨now, n, .inl rfl, rfl⟩
    · exact hrecount now
  · exact hrecount now

/-! ## Questions about the row of a key -/

/-- The search for a live row fetches the row and reads the clock if there is one. -/
theorem follows_fetchLive {permits : List (Deed τ) → Transaction τ → Prop} {b : Bool}
    {ok : Past τ → Option (Row τ) → Prop} {bad : Past τ → Failure → Prop} (c : Config τ) (k : Key)
    (operation : String) (hp : permits [] (.fetch k.text))
    (hok : ∀ deeds found b, FetchedLive k.text deeds found → ok ⟨deeds, b⟩ found)
    (hbad : ∀ (p : Past τ) f, bad p.spoiled f) :
    Follows permits ok bad (fetchLive c k operation) ⟨[], b⟩ := by
  unfold fetchLive
  rw [follows_bind]
  refine follows_transact (a := .fetch k.text) c _ _ hp (fun b found => ?_) fun f => hbad _ f
  cases found with
  | none => exact hok _ none b .missing
  | some row =>
    dsimp only
    rw [follows_bind]
    refine follows_reportPolicy _ _ ?_
    rw [follows_bind, follows_readClock]
    refine ⟨fun now => ?_, fun f => hbad _ f⟩
    cases he : row.isExpired now with
    | true => exact hok _ none b (.expired row now he)
    | false => exact hok _ (some row) b (.live row now he)

theorem serves_getRemainingTtl (c : Config τ) (key : Value) :
    Serves c (.getRemainingTtl key) (.optional .duration) (getRemainingTtl c key) := by
  unfold Serves getRemainingTtl
  refine follows_checked (fun k hk => ?_) (fun f hf _ => checked_error hf)
  refine follows_started c ?_
  rw [follows_bind]
  refine follows_fetchLive c k _ (.getRemainingTtl hk) (fun deeds found b h => ?_) fun _ _ =>
    endsSo_spoiled _ _
  cases found with
  | none => exact fun _ => checked_ok hk (.inl ⟨h, rfl⟩)
  | some row =>
    dsimp only
    refine follows_clocked fun now => ?_
    have hend : ∀ r, r = ((row.lifetime.remainingDuration now).mapError .duration).map
        (.optional .duration) → Ends c (.getRemainingTtl key) (deeds ++ [.read now]) r :=
      fun r hr => checked_ok hk (.inr ⟨row, deeds, now, h, rfl, hr⟩)
    rw [follows_ofExcept]
    cases hr : (row.lifetime.remainingDuration now).mapError Failure.duration with
    | ok d => exact fun _ => hend _ (by rw [hr]; rfl)
    | error f => exact fun _ => hend _ (by rw [hr]; rfl)

theorem serves_getTtlPolicy (c : Config τ) (key : Value) :
    Serves c (.getTtlPolicy key) (.optional Policy.toValue) (getTtlPolicy c key) := by
  unfold Serves getTtlPolicy
  refine follows_checked (fun k hk => ?_) (fun f hf _ => checked_error hf)
  refine follows_started c ?_
  rw [follows_bind]
  refine follows_fetchLive c k _ (.getTtlPolicy hk) (fun deeds found b h => ?_) fun _ _ =>
    endsSo_spoiled _ _
  cases found with
  | none => exact fun _ => checked_ok hk ⟨none, h, rfl⟩
  | some row =>
    dsimp only
    rw [follows_bind]
    exact follows_reportPolicy _ _ fun _ => checked_ok hk ⟨some row, h, rfl⟩

end Operation

end ExpiringStore
