import ExpiringStore.Proofs.Codec.Payload
import ExpiringStore.Proofs.Lifecycle.Standing
import ExpiringStore.Store.Call

/-!
# Habits of calls

Operations on entries are put together from a few parts: they check arguments, start the store, read
the clock, attempt transactions, keep books, log, and tell listeners.  A habit of these parts that
is kept when one part follows another is a habit of every call.  None of the parts fails for want of
an engine by itself, since neither arguments nor payloads are a reason to say that.

    Habit P   →   P (call.program c)                                          (Habit.of_program)
-/

namespace ExpiringStore

variable {τ α β : Type}

/-! ## What checks say -/

/-- Not a failure for want of an engine. -/
def Unrelated (r : Except Failure α) : Prop := ∀ f, r = .error f → f.isUninitialized = false

theorem unrelated_ok (a : α) : Unrelated (.ok a) := nofun

theorem unrelated_error {f : Failure} (other : f.isUninitialized = false) :
    Unrelated (.error f : Except Failure α) := by
  rintro g ⟨⟩
  exact other

theorem Unrelated.of_error {r : Except Failure α} (h : Unrelated r) {f : Failure}
    (hr : r = .error f) : Unrelated (.error f : Except Failure β) := unrelated_error (h f hr)

theorem unrelated_map {r : Except Failure α} (h : Unrelated r) (g : α → β) :
    Unrelated (r.map g) := by
  cases r with
  | ok a => exact unrelated_ok _
  | error f => exact h.of_error rfl

theorem unrelated_refuse {cause : Complaint.Cause} {operation : String} {key : Option Key}
    (other : cause ≠ .notInitialized) :
    Unrelated (refuse cause operation key : Except Failure α) := by
  refine unrelated_error ?_
  cases cause with
  | notInitialized => exact absurd rfl other
  | _ => rfl

namespace Arguments

theorem unrelated_key (v : Value) (operation : String) : Unrelated (key v operation) := by
  unfold key
  split
  · exact unrelated_refuse nofun
  · split
    · exact unrelated_refuse nofun
    · split
      · exact unrelated_refuse nofun
      · exact unrelated_ok _

theorem unrelated_keysOf (operation : String) (items : List Value) :
    Unrelated (keysOf operation items) := by
  induction items with
  | nil => exact unrelated_ok _
  | cons v rest ih =>
    unfold keysOf
    cases hk : key v operation with
    | error f => exact (unrelated_key v operation).of_error hk
    | ok k => exact unrelated_map ih _

theorem unrelated_keys (v : Value) (operation : String) : Unrelated (keys v operation) := by
  have hdistinct (items : List Value) : Unrelated ((keysOf operation items).map Key.distinct) :=
    unrelated_map (unrelated_keysOf operation items) _
  unfold keys
  split
  · exact hdistinct _
  · exact unrelated_refuse nofun
  · exact unrelated_refuse nofun
  · exact unrelated_refuse nofun
  · split
    · exact hdistinct _
    · exact unrelated_error rfl

theorem unrelated_policy (v : Value) (operation : String) (about : Option Key) :
    Unrelated (policy v operation about) := by
  unfold policy
  split
  · exact unrelated_refuse nofun
  · split
    · exact unrelated_ok _
    · exact unrelated_refuse nofun

theorem unrelated_seconds (v : Value) (operation : String) (about : Option Key) :
    Unrelated (seconds v operation about) := by
  unfold seconds
  split
  · exact unrelated_ok _
  · split
    · split
      · exact unrelated_ok _
      · exact unrelated_error rfl
    · exact unrelated_refuse nofun

theorem unrelated_ttl (v : Value) (operation : String) (about : Option Key) :
    Unrelated (ttl v operation about) := by
  unfold ttl
  cases hx : seconds v operation about with
  | error f => exact (unrelated_seconds v operation about).of_error hx
  | ok x =>
    show Unrelated (if x ≤ 0 then _ else _)
    split
    · exact unrelated_refuse nofun
    · split
      · exact unrelated_error rfl
      · exact unrelated_error rfl
      · split
        · exact unrelated_refuse nofun
        · exact unrelated_ok _

theorem unrelated_ttlOr (fallback : Option Int) (v : Value) (operation : String)
    (about : Option Key) : Unrelated (ttlOr fallback v operation about) := by
  unfold ttlOr
  split
  · exact unrelated_ok _
  · exact unrelated_map (unrelated_ttl v operation about) _

theorem unrelated_ttlGiven (v : Value) (operation : String) (about : Option Key) :
    Unrelated (ttlGiven v operation about) := by
  unfold ttlGiven
  split
  · exact unrelated_refuse nofun
  · exact unrelated_ttl v operation about

theorem unrelated_pattern (v : Value) (operation : String) : Unrelated (pattern v operation) := by
  unfold pattern
  split
  · split
    · exact unrelated_refuse nofun
    · exact unrelated_ok _
  · exact unrelated_refuse nofun

theorem unrelated_payload (allowNull : Bool) (k : Key) (v : Value) (operation : String) :
    Unrelated (payload allowNull k v operation) := by
  unfold payload
  split
  · exact unrelated_refuse nofun
  · unfold Payload.encode
    split
    · exact unrelated_ok _
    · split
      · exact unrelated_ok _
      · exact unrelated_refuse nofun

theorem unrelated_entriesOf (allowNull : Bool) (operation : String) (pairs : List (Value × Value)) :
    Unrelated (entriesOf allowNull operation pairs) := by
  induction pairs with
  | nil => exact unrelated_ok _
  | cons pair rest ih =>
    obtain ⟨kv, v⟩ := pair
    unfold entriesOf
    cases hk : key kv operation with
    | error f => exact (unrelated_key kv operation).of_error hk
    | ok k =>
      cases hp : payload allowNull k v operation with
      | error f =>
        simp only [hp]
        exact (unrelated_payload allowNull k v operation).of_error hp
      | ok p =>
        simp only [hp]
        exact unrelated_map ih _

theorem unrelated_entries (allowNull : Bool) (v : Value) (operation : String) :
    Unrelated (entries allowNull v operation) := by
  unfold entries
  split
  · exact unrelated_entriesOf allowNull operation _
  · exact unrelated_error rfl

end Arguments

theorem Payload.unrelated_decode (payload : Value) (target : Option Target) (key : Option Key) :
    Unrelated (decode payload target key) := by
  intro f hf
  obtain ⟨cause, rfl, rfl | ⟨type, errors, rfl⟩⟩ := decode_error hf
  · rfl
  · rfl

/-- An effect apart from the storage, the engine and the gates. -/
def Effect.isAside : Effect τ → Bool
  | .pause _ | .log _ | .recallSize | .bookkeep _ | .listeners | .notify _ _ => true
  | .readClock | .attempt _ | .gate _ _ | .engine _ | .sweeper _ | .noteRunning _ => false

namespace Operation

/-- What the parts of calls have in common, and what is kept when they are put together. -/
structure Habit (P : {α : Type} → Operation τ α → Prop) : Prop where
  done {α : Type} (a : α) : P (pure a)
  fail {α : Type} {f : Failure} (other : f.isUninitialized = false) : P (throw f : Operation τ α)
  bind {α β : Type} {x : Operation τ α} {f : α → Operation τ β} (hx : P x)
    (hf : ∀ a, P (f a)) : P (x >>= f)
  aside {e : Effect τ} (aside : e.isAside = true) : P (perform e)
  clock : P (readClock : Operation τ τ)
  start (c : Config τ) : P (startup c)
  /-- What an attempt answers is told as it is, unless it is met. -/
  attempt {t : Transaction τ} {meet : Fault → Operation τ t.Reply} (hmeet : ∀ f, P (meet f)) :
    P (perform (.attempt t) >>= settle meet)
  /-- A step whose complaints are only logged. -/
  attended {α : Type} (event : String) (key : Key) {x : Operation τ α} (hx : P x) :
    P (bestEffort event key x)

section
variable {P : {α : Type} → Operation τ α → Prop} (habit : Habit P)
include habit

theorem Habit.decided {r : Except Failure α} (unrelated : Unrelated r) :
    P (ofExcept r : Operation τ α) := by
  cases r with
  | ok a => exact habit.done a
  | error f => exact habit.fail (unrelated f rfl)

theorem Habit.of_map {x : Operation τ α} (hx : P x) (g : α → β) : P (g <$> x) := by
  rw [map_eq_pure_bind]
  exact habit.bind hx fun a => habit.done (g a)

theorem Habit.of_discard {x : Operation τ α} (hx : P x) : P (discard x) := habit.of_map hx _

theorem Habit.of_log (entry : Log.Entry) : P (log entry : Operation τ Unit) := habit.aside rfl

theorem Habit.of_bookkeep (b : Bookkeeping τ) : P (bookkeep b) := habit.aside rfl

theorem Habit.of_recallSize : P (perform .recallSize : Operation τ (SizeMemo τ)) :=
  habit.aside rfl

/-- The last that is done is to log what is answered. -/
theorem Habit.of_logged (entry : Log.Entry) (a : α) :
    P (log entry >>= fun _ => pure a : Operation τ α) :=
  habit.bind (habit.of_log entry) fun _ => habit.done a

/-! ## Transactions -/

theorem Habit.of_lastComplaint (operation : String) (key : Option Key) (attempt : Nat) (f : Fault) :
    P (throw (lastComplaint operation key attempt f) : Operation τ α) := by
  refine habit.fail ?_
  unfold lastComplaint
  split <;> rfl

section
variable [Instant τ] [Delay τ]

theorem Habit.of_waitFor (p : RetryPolicy τ) (operation : String) (key : Option Key) (attempt : Nat)
    (f : Fault) : P (waitFor p operation key attempt f) := by
  unfold waitFor
  split
  · exact habit.fail rfl
  · exact habit.bind (habit.of_log _) fun _ => habit.aside rfl

/-- The induction is on the attempts that are left. -/
theorem Habit.of_transactFrom (p : RetryPolicy τ) (operation : String) (key : Option Key)
    (t : Transaction τ) (attempt left : Nat) :
    P (transactFrom p operation key t attempt left) := by
  induction left generalizing attempt with
  | zero => exact habit.attempt fun f => habit.of_lastComplaint operation key attempt f
  | succ left ih =>
    refine habit.attempt fun f => ?_
    split
    · exact habit.bind (habit.of_waitFor p operation key attempt f) fun _ => ih (attempt + 1)
    · exact habit.of_lastComplaint operation key attempt f

theorem Habit.of_transact (c : Config τ) (operation : String) (t : Transaction τ)
    (key : Option Key) : P (transact c operation t key) :=
  habit.of_transactFrom c.retry operation key t 1 _

end

/-! ## Around transactions -/

theorem Habit.of_tell (e : Event) (ls : List ListenerId) : P (tell e ls : Operation τ Unit) := by
  induction ls with
  | nil => exact habit.done ()
  | cons l rest ih =>
    refine habit.bind (habit.aside rfl) fun answer => ?_
    cases answer with
    | none => exact ih
    | some text => exact habit.bind (habit.of_log _) fun _ => ih

theorem Habit.of_announce (e : Event) : P (announce e : Operation τ Unit) :=
  habit.bind (habit.aside rfl) fun ls => habit.of_tell e ls

theorem Habit.of_announceAll (es : List Event) : P (announceAll es : Operation τ Unit) := by
  induction es with
  | nil => exact habit.done ()
  | cons e rest ih => exact habit.bind (habit.of_announce e) fun _ => ih

theorem Habit.of_reportPolicy (key : Value) (stored : String) :
    P (reportPolicy key stored : Operation τ Unit) := by
  unfold reportPolicy
  split
  · exact habit.done ()
  · exact habit.of_log _

/-! ## Reads -/

section
variable [Instant τ] [Delay τ] (c : Config τ)

theorem Habit.of_removeExpiredKey (key : Key) (now : τ) : P (removeExpiredKey c key now) := by
  refine habit.bind (habit.attended _ key (habit.of_transact c _ _ _)) fun removed => ?_
  split
  · exact habit.of_bookkeep _
  · exact habit.done ()

theorem Habit.of_touch (key : Key) (now : τ) : P (touch c key now) :=
  habit.of_discard (habit.attended _ key (habit.of_transact c _ _ _))

theorem Habit.of_get (key : Value) (refresh : Bool) (target : Option Target) :
    P (get c key refresh target) := by
  refine habit.bind (habit.decided (Arguments.unrelated_key key _)) fun key => ?_
  refine habit.bind (habit.start c) fun _ => ?_
  refine habit.bind (habit.of_transact c _ _ _) fun row? => ?_
  cases row? with
  | none =>
    exact habit.bind (habit.of_bookkeep _) fun _ => habit.of_logged _ _
  | some row =>
    refine habit.bind habit.clock fun now => ?_
    refine habit.bind (habit.of_reportPolicy _ _) fun _ => ?_
    split
    · refine habit.bind (habit.of_removeExpiredKey c key now) fun _ => ?_
      exact habit.bind (habit.of_bookkeep _) fun _ => habit.of_logged _ _
    · have hfound : P (do
          let value ← ofExcept (Payload.decode row.payload.value target (some key))
          bookkeep (.record .hits 1)
          logLookup "get" key true
          return Lookup.ofDecoded value : Operation τ Lookup) := by
        refine habit.bind (habit.decided (Payload.unrelated_decode _ _ _)) fun value => ?_
        exact habit.bind (habit.of_bookkeep _) fun _ => habit.of_logged _ _
      dsimp only
      split
      · exact habit.bind (habit.of_touch c key now) fun _ => hfound
      · exact hfound

theorem Habit.of_containsKey (key : Value) : P (containsKey c key) := by
  refine habit.bind (habit.decided (Arguments.unrelated_key key _)) fun key => ?_
  refine habit.bind (habit.start c) fun _ => ?_
  exact habit.bind habit.clock fun now => habit.of_transact c _ _ _

omit [Delay τ] in
theorem Habit.of_decodeLive (target : Option Target) (now : τ) (rows : List (String × Row τ)) :
    P (decodeLive target now rows) := by
  induction rows with
  | nil => exact habit.done []
  | cons pair rest ih =>
    refine habit.bind (habit.of_reportPolicy _ _) fun _ => ?_
    split
    · exact ih
    · refine habit.bind (habit.decided (Payload.unrelated_decode _ _ _)) fun value => ?_
      exact habit.bind ih fun found => habit.done _

theorem Habit.of_getAll (keys : Value) (target : Option Target) : P (getAll c keys target) := by
  refine habit.bind (habit.decided (Arguments.unrelated_keys keys _)) fun keys => ?_
  split
  · exact habit.done []
  refine habit.bind (habit.start c) fun _ => ?_
  refine habit.bind (habit.of_transact c _ _ _) fun rows => ?_
  refine habit.bind habit.clock fun now => ?_
  refine habit.bind (habit.of_decodeLive target now rows) fun found => ?_
  dsimp only
  split
  · refine habit.bind (habit.of_bookkeep _) fun _ => ?_
    split
    · exact habit.bind (habit.of_bookkeep _) fun _ => habit.of_logged _ _
    · exact habit.of_logged _ _
  · split
    · exact habit.bind (habit.of_bookkeep _) fun _ => habit.of_logged _ _
    · exact habit.of_logged _ _

theorem Habit.of_getKeys (pattern : Value) : P (getKeys c pattern) := by
  refine habit.bind (habit.decided (Arguments.unrelated_pattern pattern _)) fun pattern => ?_
  refine habit.bind (habit.start c) fun _ => ?_
  exact habit.bind habit.clock fun now => habit.of_transact c _ _ _

theorem Habit.of_fetchLive (key : Key) (operation : String) : P (fetchLive c key operation) := by
  refine habit.bind (habit.of_transact c _ _ _) fun row? => ?_
  cases row? with
  | none => exact habit.done none
  | some row =>
    refine habit.bind (habit.of_reportPolicy _ _) fun _ => ?_
    exact habit.bind habit.clock fun now => habit.done _

theorem Habit.of_getRemainingTtl (key : Value) : P (getRemainingTtl c key) := by
  refine habit.bind (habit.decided (Arguments.unrelated_key key _)) fun key => ?_
  refine habit.bind (habit.start c) fun _ => ?_
  refine habit.bind (habit.of_fetchLive c key _) fun row? => ?_
  cases row? with
  | none => exact habit.done none
  | some row =>
    refine habit.bind habit.clock fun now => habit.decided ?_
    cases row.lifetime.remainingDuration now with
    | ok d => exact unrelated_ok _
    | error reason => exact unrelated_error rfl

theorem Habit.of_getTtlPolicy (key : Value) : P (getTtlPolicy c key) := by
  refine habit.bind (habit.decided (Arguments.unrelated_key key _)) fun key => ?_
  refine habit.bind (habit.start c) fun _ => ?_
  refine habit.bind (habit.of_fetchLive c key _) fun row? => ?_
  cases row? with
  | none => exact habit.done none
  | some row => exact habit.bind (habit.of_reportPolicy _ _) fun _ => habit.done _

theorem Habit.of_size : P (size c) := by
  have hrecount (now : τ) : P (size.recount c now) := by
    refine habit.bind (habit.start c) fun _ => habit.bind habit.of_recallSize fun memo => ?_
    refine habit.bind (habit.of_transact c _ _ _) fun count => ?_
    exact habit.bind (habit.of_bookkeep _) fun _ => habit.of_logged _ _
  refine habit.bind habit.clock fun now => habit.bind habit.of_recallSize fun memo => ?_
  split
  · split
    · exact habit.of_logged _ _
    · exact hrecount now
  · exact hrecount now

/-! ## Writes -/

theorem Habit.of_put (key value ttl policy : Value) : P (put c key value ttl policy) := by
  refine habit.bind (habit.decided (Arguments.unrelated_key key _)) fun key => ?_
  refine habit.bind (habit.decided (Arguments.unrelated_ttlOr _ ttl _ _)) fun ttl => ?_
  refine habit.bind (habit.decided (Arguments.unrelated_policy policy _ _)) fun policy => ?_
  refine habit.bind (habit.decided (Arguments.unrelated_payload _ key value _)) fun payload => ?_
  refine habit.bind (habit.start c) fun _ => habit.bind habit.clock fun now => ?_
  refine habit.bind (habit.of_transact c _ _ _) fun _ => ?_
  refine habit.bind (habit.of_bookkeep _) fun _ => habit.bind (habit.of_bookkeep _) fun _ => ?_
  exact habit.bind (habit.of_log _) fun _ => habit.of_announce _

/-- The induction is on the tries that are left. -/
theorem Habit.of_insertIfAbsent (key : Key) (value : Value) (payload : Json) (ttl : Option Int)
    (policy : Policy) (left : Nat) :
    P (insertIfAbsent c key value payload ttl policy left) := by
  induction left with
  | zero => exact habit.fail rfl
  | succ left ih =>
    refine habit.bind habit.clock fun now => ?_
    refine habit.bind (habit.of_transact c _ _ _) fun result => ?_
    cases result with
    | inserted =>
      refine habit.bind (habit.of_bookkeep _) fun _ => habit.bind (habit.of_bookkeep _) fun _ => ?_
      refine habit.bind (habit.of_log _) fun _ => habit.bind (habit.of_announce _) fun _ => ?_
      exact habit.done _
    | present row =>
      refine habit.bind (habit.of_log _) fun _ => ?_
      exact habit.bind (habit.decided (Payload.unrelated_decode _ _ _)) fun found => habit.done _
    | neither => exact habit.bind (habit.of_log _) fun _ => ih

theorem Habit.of_putIfAbsent (key value ttl policy : Value) :
    P (putIfAbsent c key value ttl policy) := by
  refine habit.bind (habit.decided (Arguments.unrelated_key key _)) fun key => ?_
  refine habit.bind (habit.decided (Arguments.unrelated_ttlOr _ ttl _ _)) fun ttl => ?_
  refine habit.bind (habit.decided (Arguments.unrelated_policy policy _ _)) fun policy => ?_
  refine habit.bind (habit.decided (Arguments.unrelated_payload _ key value _)) fun payload => ?_
  exact habit.bind (habit.start c) fun _ => habit.of_insertIfAbsent c key value payload ttl policy _

theorem Habit.of_putAll (entries ttl policy : Value) : P (putAll c entries ttl policy) := by
  refine habit.bind (habit.decided (Arguments.unrelated_ttlOr _ ttl _ _)) fun ttl => ?_
  refine habit.bind (habit.decided (Arguments.unrelated_policy policy _ _)) fun policy => ?_
  split
  · exact habit.done 0
  refine habit.bind (habit.decided (Arguments.unrelated_entries _ entries _)) fun batch => ?_
  refine habit.bind (habit.start c) fun _ => habit.bind habit.clock fun now => ?_
  refine habit.bind (habit.of_transact c _ _ _) fun _ => ?_
  refine habit.bind (habit.of_bookkeep _) fun _ => habit.bind (habit.of_bookkeep _) fun _ => ?_
  refine habit.bind (habit.of_log _) fun _ => habit.bind (habit.of_announceAll _) fun _ => ?_
  exact habit.done _

theorem Habit.of_refreshTtl (key ttl policy : Value) : P (refreshTtl c key ttl policy) := by
  refine habit.bind (habit.decided (Arguments.unrelated_key key _)) fun key => ?_
  refine habit.bind (habit.decided (Arguments.unrelated_ttlGiven ttl _ _)) fun ttl => ?_
  refine habit.bind (habit.decided (Arguments.unrelated_policy policy _ _)) fun policy => ?_
  refine habit.bind (habit.start c) fun _ => habit.bind habit.clock fun now => ?_
  refine habit.bind (habit.of_transact c _ _ _) fun updated => ?_
  cases updated with
  | true => exact habit.bind (habit.of_bookkeep _) fun _ => habit.of_logged _ _
  | false => exact habit.of_logged _ _

/-! ## Removals -/

theorem Habit.of_evict (key : Value) : P (evict c key) := by
  refine habit.bind (habit.decided (Arguments.unrelated_key key _)) fun key => ?_
  refine habit.bind (habit.start c) fun _ => ?_
  refine habit.bind (habit.of_transact c _ _ _) fun removed => ?_
  refine habit.bind (habit.of_log _) fun _ => ?_
  cases removed with
  | true =>
    refine habit.bind (habit.of_bookkeep _) fun _ => habit.bind (habit.of_bookkeep _) fun _ => ?_
    exact habit.bind (habit.of_announce _) fun _ => habit.done _
  | false => exact habit.done _

omit [Instant τ] [Delay τ] in
theorem Habit.of_afterRemoval (keys : List String) : P (afterRemoval keys : Operation τ Unit) := by
  unfold afterRemoval
  split
  · exact habit.done ()
  · refine habit.bind (habit.of_bookkeep _) fun _ => habit.bind (habit.of_bookkeep _) fun _ => ?_
    exact habit.of_announceAll _

theorem Habit.of_evictAll (keys : Value) : P (evictAll c keys) := by
  refine habit.bind (habit.decided (Arguments.unrelated_keys keys _)) fun keys => ?_
  split
  · exact habit.done 0
  refine habit.bind (habit.start c) fun _ => ?_
  refine habit.bind (habit.of_transact c _ _ _) fun removed => ?_
  exact habit.bind (habit.of_afterRemoval removed) fun _ => habit.done _

theorem Habit.of_evictByPattern (pattern : Value) : P (evictByPattern c pattern) := by
  refine habit.bind (habit.decided (Arguments.unrelated_pattern pattern _)) fun text => ?_
  refine habit.bind (habit.start c) fun _ => ?_
  refine habit.bind (habit.of_transact c _ _ _) fun removed => ?_
  have hremoved : P (do
      afterRemoval removed
      return removed.length : Operation τ Nat) :=
    habit.bind (habit.of_afterRemoval removed) fun _ => habit.done _
  dsimp only
  split
  · exact habit.bind (habit.of_log _) fun _ => hremoved
  · exact hremoved

theorem Habit.of_clear : P (clear c) := by
  refine habit.bind (habit.start c) fun _ => ?_
  refine habit.bind (habit.of_transact c _ _ _) fun removed => ?_
  have hcleared : P (do
      bookkeep .forgetSize
      log ⟨.info, "Cache cleared", [("deleted", .int removed)]⟩
      announce .clear
      return removed : Operation τ Nat) := by
    refine habit.bind (habit.of_bookkeep _) fun _ => habit.bind (habit.of_log _) fun _ => ?_
    exact habit.bind (habit.of_announce _) fun _ => habit.done _
  dsimp only
  split
  · exact habit.bind (habit.of_bookkeep _) fun _ => hcleared
  · exact hcleared

theorem Habit.of_cleanupExpired : P (cleanupExpired c) := by
  refine habit.bind (habit.start c) fun _ => habit.bind habit.clock fun now => ?_
  refine habit.bind (habit.of_transact c _ _ _) fun removed => ?_
  dsimp only
  split
  · exact habit.bind (habit.of_bookkeep _) fun _ => habit.of_logged _ _
  · exact habit.of_logged _ _

/-- Every call has the habits of its parts. -/
theorem Habit.of_program (call : Call) : P (call.program c) := by
  cases call with
  | get key refresh target => exact habit.of_map (habit.of_get c key refresh target) _
  | containsKey key => exact habit.of_map (habit.of_containsKey c key) _
  | getAll keys target => exact habit.of_map (habit.of_getAll c keys target) _
  | getKeys pattern => exact habit.of_map (habit.of_getKeys c pattern) _
  | getAllKeys => exact habit.of_map (habit.of_getKeys c (.str "*")) _
  | getRemainingTtl key => exact habit.of_map (habit.of_getRemainingTtl c key) _
  | getTtlPolicy key => exact habit.of_map (habit.of_getTtlPolicy c key) _
  | size => exact habit.of_map (habit.of_size c) _
  | put key value ttl policy => exact habit.of_map (habit.of_put c key value ttl policy) _
  | putIfAbsent key value ttl policy =>
    exact habit.of_map (habit.of_putIfAbsent c key value ttl policy) _
  | putAll entries ttl policy => exact habit.of_map (habit.of_putAll c entries ttl policy) _
  | refreshTtl key ttl policy => exact habit.of_map (habit.of_refreshTtl c key ttl policy) _
  | evict key => exact habit.of_map (habit.of_evict c key) _
  | evictAll keys => exact habit.of_map (habit.of_evictAll c keys) _
  | evictByPattern pattern => exact habit.of_map (habit.of_evictByPattern c pattern) _
  | clear => exact habit.of_map (habit.of_clear c) _
  | cleanupExpired => exact habit.of_map (habit.of_cleanupExpired c) _

end

end

end Operation

end ExpiringStore
