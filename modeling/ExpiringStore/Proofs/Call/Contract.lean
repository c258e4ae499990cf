import ExpiringStore.Store.Call
import ExpiringStore.Proofs.Program.Follows

/-!
# What calls may do

For each call, the transactions that it may attempt after what it has done so far, and what it has
done and answers at its end if what it attempts is carried out.  Instants in transactions are
earlier readings of the same call, and what a lookup removes or touches it has fetched before.

    Makes c call deeds a     call may attempt a after deeds
    Ends c call deeds r      call may end with the answer r after deeds
-/

namespace ExpiringStore

variable {τ : Type}

/-! ## Checked arguments -/

structure Written where
  key : Key
  ttl : Option Int
  policy : Policy
  payload : Json

structure WrittenMany where
  entries : List Arguments.Entry
  ttl : Option Int
  policy : Policy

structure Renewal where
  key : Key
  ttl : Int
  policy : Policy

namespace Arguments

def written (c : Config τ) (operation : String) (key value ttl policy : Value) :
    Except Failure Written := do
  let key ← Arguments.key key operation
  let ttl ← ttlOr c.defaultTtl ttl operation (some key)
  let policy ← Arguments.policy policy operation (some key)
  let payload ← payload c.allowNull key value operation
  return ⟨key, ttl, policy, payload⟩

/-- Nothing is checked of entries of which there are none. -/
def writtenMany (c : Config τ) (entries ttl policy : Value) : Except Failure WrittenMany := do
  let ttl ← ttlOr c.defaultTtl ttl "put_all"
  let policy ← Arguments.policy policy "put_all"
  if entries.isTruthy then
    let batch ← Arguments.entries c.allowNull entries "put_all"
    return ⟨batch, ttl, policy⟩
  else return ⟨[], ttl, policy⟩

def renewal (key ttl policy : Value) : Except Failure Renewal := do
  let key ← Arguments.key key "refresh_ttl"
  let ttl ← ttlGiven ttl "refresh_ttl" (some key)
  let policy ← Arguments.policy policy "refresh_ttl" (some key)
  return ⟨key, ttl, policy⟩

end Arguments

def Written.row [Instant τ] (w : Written) (now : τ) : Row τ :=
  Operation.rowOf w.payload w.ttl w.policy now

def WrittenMany.rows [Instant τ] (w : WrittenMany) (now : τ) : List (String × Row τ) :=
  w.entries.map fun e => (e.key.text, Operation.rowOf e.payload w.ttl w.policy now)

/-- Does a read move the lifetime of the entry forward? -/
def Row.slides (r : Row τ) : Bool := Policy.ofStored r.policy == .sliding && r.ttl.isSome

namespace Call

variable [Instant τ]

/-! ## Transactions -/

/-- The transactions that a call may attempt after what it has done. -/
inductive Makes (c : Config τ) : Call → List (Deed τ) → Transaction τ → Prop
  | lookUp {deeds : List (Deed τ)} {key : Value} {refresh : Bool} {target : Option Target} {k : Key}
      (given : Arguments.key key "get" = .ok k) :
      Makes c (.get key refresh target) deeds (.fetch k.text)
  | expire {deeds : List (Deed τ)} {key : Value} {refresh : Bool} {target : Option Target} {k : Key}
      {row : Row τ} {now : τ} (given : Arguments.key key "get" = .ok k)
      (fetched : .committed (.fetch k.text) (some row) ∈ deeds) (read : .read now ∈ deeds)
      (dead : row.isExpired now = true) :
      Makes c (.get key refresh target) deeds (.removeExpiredKey k.text now)
  | touch {deeds : List (Deed τ)} {key : Value} {refresh : Bool} {target : Option Target} {k : Key}
      {row : Row τ} {now : τ} (given : Arguments.key key "get" = .ok k)
      (fetched : .committed (.fetch k.text) (some row) ∈ deeds) (read : .read now ∈ deeds)
      (live : row.isExpired now = false) (slides : (refresh && row.slides) = true) :
      Makes c (.get key refresh target) deeds (.touch k.text now)
  | containsKey {deeds : List (Deed τ)} {key : Value} {k : Key} {now : τ}
      (given : Arguments.key key "contains_key" = .ok k) (read : .read now ∈ deeds) :
      Makes c (.containsKey key) deeds (.isLive k.text now)
  | getAll {deeds : List (Deed τ)} {keys : Value} {target : Option Target} {ks : List Key}
      (given : Arguments.keys keys "get_all" = .ok ks) :
      Makes c (.getAll keys target) deeds (.fetchMany (ks.map (·.text)))
  | getKeys {deeds : List (Deed τ)} {pattern : Value} {g : String} {now : τ}
      (given : Arguments.pattern pattern "get_keys" = .ok g) (read : .read now ∈ deeds) :
      Makes c (.getKeys pattern) deeds (.liveKeys (likeOfGlob g) now)
  | getAllKeys {deeds : List (Deed τ)} {now : τ} (read : .read now ∈ deeds) :
      Makes c .getAllKeys deeds (.liveKeys (likeOfGlob "*") now)
  | getRemainingTtl {deeds : List (Deed τ)} {key : Value} {k : Key}
      (given : Arguments.key key "get_remaining_ttl" = .ok k) :
      Makes c (.getRemainingTtl key) deeds (.fetch k.text)
  | getTtlPolicy {deeds : List (Deed τ)} {key : Value} {k : Key}
      (given : Arguments.key key "get_ttl_policy" = .ok k) :
      Makes c (.getTtlPolicy key) deeds (.fetch k.text)
  | size {deeds : List (Deed τ)} {now : τ} (read : .read now ∈ deeds) :
      Makes c .size deeds (.countLive now)
  | put {deeds : List (Deed τ)} {key value ttl policy : Value} {w : Written} {now : τ}
      (given : Arguments.written c "put" key value ttl policy = .ok w) (read : .read now ∈ deeds) :
      Makes c (.put key value ttl policy) deeds (.write [(w.key.text, w.row now)])
  | putIfAbsent {deeds : List (Deed τ)} {key value ttl policy : Value} {w : Written} {now : τ}
      (given : Arguments.written c "put_if_absent" key value ttl policy = .ok w)
      (read : .read now ∈ deeds) : Makes c (.putIfAbsent key value ttl policy) deeds
        (.writeIfAbsent w.key.text (w.row now) now)
  | putAll {deeds : List (Deed τ)} {entries ttl policy : Value} {w : WrittenMany} {now : τ}
      (given : Arguments.writtenMany c entries ttl policy = .ok w) (read : .read now ∈ deeds) :
      Makes c (.putAll entries ttl policy) deeds (.write (w.rows now))
  | refreshTtl {deeds : List (Deed τ)} {key ttl policy : Value} {w : Renewal} {now : τ}
      (given : Arguments.renewal key ttl policy = .ok w) (read : .read now ∈ deeds) :
      Makes c (.refreshTtl key ttl policy) deeds (.extend w.key.text w.ttl w.policy now)
  | evict {deeds : List (Deed τ)} {key : Value} {k : Key}
      (given : Arguments.key key "evict" = .ok k) : Makes c (.evict key) deeds (.remove k.text)
  | evictAll {deeds : List (Deed τ)} {keys : Value} {ks : List Key}
      (given : Arguments.keys keys "evict_all" = .ok ks) :
      Makes c (.evictAll keys) deeds (.removeMany (ks.map (·.text)))
  | evictByPattern {deeds : List (Deed τ)} {pattern : Value} {g : String}
      (given : Arguments.pattern pattern "evict_by_pattern" = .ok g) :
      Makes c (.evictByPattern pattern) deeds (.removeMatching (likeOfGlob g))
  | clear {deeds : List (Deed τ)} : Makes c .clear deeds .removeEvery
  | cleanupExpired {deeds : List (Deed τ)} {now : τ} (read : .read now ∈ deeds) :
      Makes c .cleanupExpired deeds (.removeExpired now)

/-- What a call may attempt, it may attempt after more deeds as well. -/
theorem Makes.mono {c : Config τ} {call : Call} {deeds deeds' : List (Deed τ)}
    (hsub : deeds ⊆ deeds') {a : Transaction τ} (h : call.Makes c deeds a) :
    call.Makes c deeds' a := by
  cases h with
  | lookUp given => exact .lookUp given
  | expire given fetched read dead => exact .expire given (hsub fetched) (hsub read) dead
  | touch given fetched read live slides =>
    exact .touch given (hsub fetched) (hsub read) live slides
  | containsKey given read => exact .containsKey given (hsub read)
  | getAll given => exact .getAll given
  | getKeys given read => exact .getKeys given (hsub read)
  | getAllKeys read => exact .getAllKeys (hsub read)
  | getRemainingTtl given => exact .getRemainingTtl given
  | getTtlPolicy given => exact .getTtlPolicy given
  | size read => exact .size (hsub read)
  | put given read => exact .put given (hsub read)
  | putIfAbsent given read => exact .putIfAbsent given (hsub read)
  | putAll given read => exact .putAll given (hsub read)
  | refreshTtl given read => exact .refreshTtl given (hsub read)
  | evict given => exact .evict given
  | evictAll given => exact .evictAll given
  | evictByPattern given => exact .evictByPattern given
  | clear => exact .clear
  | cleanupExpired read => exact .cleanupExpired (hsub read)

/-! ## Ends -/

/-- What follows checked arguments.  A refusal ends a call before it has done anything. -/
def Checked {α : Type} (x : Except Failure α) (deeds : List (Deed τ)) (r : Except Failure Answer)
    (rest : α → Prop) : Prop :=
  match x with
  | .ok a => rest a
  | .error f => deeds = [] ∧ r = .error f

def liveValues (target : Option Target) (now : τ) :
    List (String × Row τ) → Except Failure (List (String × Value))
  | [] => .ok []
  | (key, row) :: rest =>
    if row.isExpired now then liveValues target now rest
    else do
      let value ← Payload.decode row.payload.value target (some (.plain key))
      let found ← liveValues target now rest
      return (key, value) :: found

/-- How a lookup ends. -/
inductive LookedUp (k : Key) (refresh : Bool) (target : Option Target) :
    List (Deed τ) → Except Failure Answer → Prop
  | missing : LookedUp k refresh target [.committed (.fetch k.text) none] (.ok (.lookup .miss))
  | expired (row : Row τ) (now : τ) (removed : Bool) (dead : row.isExpired now = true) :
      LookedUp k refresh target
        [.committed (.fetch k.text) (some row), .read now,
          .committed (.removeExpiredKey k.text now) removed]
        (.ok (.lookup .miss))
  | live (row : Row τ) (now : τ) (live : row.isExpired now = false) :
      LookedUp k refresh target
        ([.committed (.fetch k.text) (some row), .read now] ++
          if refresh && row.slides then [.committed (.touch k.text now) ()] else [])
        ((Payload.decode row.payload.value target (some k)).map (.lookup ∘ .ofDecoded))

/-- How the search for the live row of a key ends. -/
inductive FetchedLive (k : String) : List (Deed τ) → Option (Row τ) → Prop
  | missing : FetchedLive k [.committed (.fetch k) none] none
  | expired (row : Row τ) (now : τ) (dead : row.isExpired now = true) :
      FetchedLive k [.committed (.fetch k) (some row), .read now] none
  | live (row : Row τ) (now : τ) (live : row.isExpired now = false) :
      FetchedLive k [.committed (.fetch k) (some row), .read now] (some row)

/-- How a conditional insertion ends that may be tried so many times. -/
inductive Inserted (w : Written) : Nat → List (Deed τ) → Except Failure Answer → Prop
  | unsettled : Inserted w 0 []
      (.error (.complaint ⟨.unsettled, some "put_if_absent", some w.key⟩))
  | inserted (left : Nat) (now : τ) : Inserted w (left + 1)
      [.read now, .committed (.writeIfAbsent w.key.text (w.row now) now) .inserted]
      (.ok (.lookup .miss))
  | present (left : Nat) (now : τ) (row : Row τ) : Inserted w (left + 1)
      [.read now, .committed (.writeIfAbsent w.key.text (w.row now) now) (.present row)]
      ((Payload.decode row.payload.value none (some w.key)).map (.lookup ∘ .ofDecoded))
  | neither (left : Nat) (now : τ) {deeds : List (Deed τ)} {r : Except Failure Answer}
      (rest : Inserted w left deeds r) : Inserted w (left + 1)
      (.read now :: .committed (.writeIfAbsent w.key.text (w.row now) now) .neither :: deeds) r

def Listed (pattern : String) (deeds : List (Deed τ)) (r : Except Failure Answer) : Prop :=
  ∃ now keys, deeds = [.read now, .committed (.liveKeys (likeOfGlob pattern) now) keys] ∧
    r = .ok (.texts keys)

/-- What a call has done and answers at its end, if no step of the storage failed. -/
def Ends (c : Config τ) (call : Call) (deeds : List (Deed τ)) (r : Except Failure Answer) : Prop :=
  match call with
  | .get key refresh target => Checked (Arguments.key key "get") deeds r fun k =>
      LookedUp k refresh target deeds r
  | .containsKey key => Checked (Arguments.key key "contains_key") deeds r fun k =>
      ∃ now b, deeds = [.read now, .committed (.isLive k.text now) b] ∧ r = .ok (.bool b)
  | .getAll keys target => Checked (Arguments.keys keys "get_all") deeds r fun ks =>
      if ks.isEmpty then deeds = [] ∧ r = .ok (.found [])
      else ∃ rows now, deeds = [.committed (.fetchMany (ks.map (·.text))) rows, .read now] ∧
        r = (liveValues target now rows).map fun found =>
          .found (ks.filterMap fun k => (found.lookup k.text).map (k, ·))
  | .getKeys pattern => Checked (Arguments.pattern pattern "get_keys") deeds r fun g =>
      Listed g deeds r
  | .getAllKeys => Listed "*" deeds r
  | .getRemainingTtl key => Checked (Arguments.key key "get_remaining_ttl") deeds r fun k =>
      (FetchedLive k.text deeds none ∧ r = .ok (.optional .duration none)) ∨
      ∃ row first now, FetchedLive k.text first (some row) ∧ deeds = first ++ [.read now] ∧
        r = ((row.lifetime.remainingDuration now).mapError .duration).map (.optional .duration)
  | .getTtlPolicy key => Checked (Arguments.key key "get_ttl_policy") deeds r fun k =>
      ∃ found, FetchedLive k.text deeds found ∧
        r = .ok (.optional Policy.toValue (found.map fun row => Policy.ofStored row.policy))
  | .size => ∃ now n, (deeds = [.read now] ∨ deeds = [.read now, .committed (.countLive now) n]) ∧
      r = .ok (.count n)
  | .put key value ttl policy => Checked (Arguments.written c "put" key value ttl policy) deeds r
      fun w => ∃ now, deeds = [.read now, .committed (.write [(w.key.text, w.row now)]) ()] ∧
        r = .ok .nothing
  | .putIfAbsent key value ttl policy =>
      Checked (Arguments.written c "put_if_absent" key value ttl policy) deeds r fun w =>
        Inserted w Operation.insertionAttempts deeds r
  | .putAll entries ttl policy => Checked (Arguments.writtenMany c entries ttl policy) deeds r
      fun w => if entries.isTruthy then
          ∃ now, deeds = [.read now, .committed (.write (w.rows now)) ()] ∧
            r = .ok (.count w.entries.length)
        else deeds = [] ∧ r = .ok (.count 0)
  | .refreshTtl key ttl policy => Checked (Arguments.renewal key ttl policy) deeds r fun w =>
      ∃ now b, deeds = [.read now, .committed (.extend w.key.text w.ttl w.policy now) b] ∧
        r = .ok (.bool b)
  | .evict key => Checked (Arguments.key key "evict") deeds r fun k =>
      ∃ b, deeds = [.committed (.remove k.text) b] ∧ r = .ok (.bool b)
  | .evictAll keys => Checked (Arguments.keys keys "evict_all") deeds r fun ks =>
      if ks.isEmpty then deeds = [] ∧ r = .ok (.count 0)
      else ∃ removed, deeds = [.committed (.removeMany (ks.map (·.text))) removed] ∧
        r = .ok (.count removed.length)
  | .evictByPattern pattern => Checked (Arguments.pattern pattern "evict_by_pattern") deeds r
      fun g => ∃ removed, deeds = [.committed (.removeMatching (likeOfGlob g)) removed] ∧
        r = .ok (.count removed.length)
  | .clear => ∃ n, deeds = [.committed .removeEvery n] ∧ r = .ok (.count n)
  | .cleanupExpired => ∃ now n, deeds = [.read now, .committed (.removeExpired now) n] ∧
      r = .ok (.count n)

end Call

end ExpiringStore
