import ExpiringStore.Proofs.Call.Contract
import ExpiringStore.Proofs.Program.TrailParts

/-!
# Accounts of calls

What each call leaves behind, to the last mark, with what it answers.  A call that ends for trouble
with the storage has done nothing until then; every other end has its account.

    Accounts c call t r      call may leave the trail t and answer r
    Broken c call t f        call may end with f for a trouble on the trail t
-/

namespace ExpiringStore

variable {τ : Type}

/-- Is it certain of a committed transaction that it has changed nothing? -/
def Transaction.isQuiet : (a : Transaction τ) → a.Reply → Bool
  | .probe, _ | .fetch _, _ | .fetchMany _, _ | .isLive _ _, _ | .liveKeys _ _, _
  | .countLive _, _ => true
  | .writeIfAbsent _ _ _, .inserted => false
  | .writeIfAbsent _ _ _, _ => true
  | _, _ => false

def Transaction.isCourtesy : Transaction τ → Bool
  | .touch _ _ | .removeExpiredKey _ _ => true
  | _ => false

/-- A mark of a step that has changed nothing. -/
def Mark.isIdle : Mark τ → Bool
  | .read _ | .recalled _ => true
  | .committed a r => a.isQuiet r
  | _ => false

def Deed.mark : Deed τ → Mark τ
  | .read now => .read now
  | .committed a r => .committed a r

namespace Call

/-- The rule by which books are kept: a size is kept only as it was counted, under the generation
that was recalled before it was counted. -/
def Books (ms : List (Mark τ)) : Bookkeeping τ → Prop
  | .keepSize g n now => ∃ m₀ m, m.generation = g ∧
      ms = [.read now, .recalled m₀, .recalled m, .committed (.countLive now) n]
  | _ => True

/-- What follows checked arguments.  A refusal ends a call before it has asked for anything. -/
def Vetted {α : Type} (x : Except Failure α) (t : Trail τ) (r : Except Failure Answer)
    (rest : α → Prop) : Prop :=
  match x with
  | .ok a => rest a
  | .error f => t = {} ∧ r = .error f

/-- Arguments are refused, before anything is asked for, or they are in order. -/
theorem Vetted.cases {α : Type} {x : Except Failure α} {t : Trail τ} {r : Except Failure Answer}
    {rest : α → Prop} (h : Vetted x t r rest) :
    (∃ f, x = .error f ∧ t = {} ∧ r = .error f) ∨ ∃ a, x = .ok a ∧ rest a := by
  cases x with
  | ok a => exact .inr ⟨a, rfl, h⟩
  | error f => exact .inl ⟨f, rfl, h⟩

theorem Vetted.rest {α : Type} {x : Except Failure α} {a : α} {t : Trail τ}
    {r : Except Failure Answer} {rest : α → Prop} (h : Vetted x t r rest) (hx : x = .ok a) :
    rest a := by
  subst hx
  exact h

section
variable [Instant τ]

/-! ## Lookups -/

/-- What a lookup leaves of the removal of an expired entry. -/
inductive Swept (k : Key) (now : τ) (troubles : List (Trouble τ)) : List (Mark τ) → Prop
  | removed : Swept k now troubles
      [.committed (.removeExpiredKey k.text now) true, .noted .forgetSize]
  | gone : Swept k now troubles [.committed (.removeExpiredKey k.text now) false]
  | missed (f : Failure) (met : .attempt (.removeExpiredKey k.text now) f ∈ troubles) :
      Swept k now troubles []

/-- What a lookup leaves of the refresh of a live entry. -/
inductive Touched (k : Key) (refresh : Bool) (row : Row τ) (now : τ)
    (troubles : List (Trouble τ)) : List (Mark τ) → Prop
  | still (h : (refresh && row.slides) = false) : Touched k refresh row now troubles []
  | moved (h : (refresh && row.slides) = true) :
      Touched k refresh row now troubles [.committed (.touch k.text now) ()]
  | missed (h : (refresh && row.slides) = true) (f : Failure)
      (met : .attempt (.touch k.text now) f ∈ troubles) : Touched k refresh row now troubles []

/-- The account of a lookup. -/
inductive LooksUp (k : Key) (refresh : Bool) (target : Option Target) (t : Trail τ) :
    Except Failure Answer → Prop
  | missing (marks : t.marks = [.committed (.fetch k.text) none, .noted (.record .misses 1)]) :
      LooksUp k refresh target t (.ok (.lookup .miss))
  | expired {row : Row τ} {now : τ} {swept : List (Mark τ)} (dead : row.isExpired now = true)
      (sweep : Swept k now t.troubles swept)
      (marks : t.marks = [.committed (.fetch k.text) (some row), .read now] ++ swept ++
        [.noted (.record .misses 1)]) : LooksUp k refresh target t (.ok (.lookup .miss))
  | found {row : Row τ} {now : τ} {touched : List (Mark τ)} {v : Value}
      (live : row.isExpired now = false) (touch : Touched k refresh row now t.troubles touched)
      (decodes : Payload.decode row.payload.value target (some k) = .ok v)
      (marks : t.marks = [.committed (.fetch k.text) (some row), .read now] ++ touched ++
        [.noted (.record .hits 1)]) : LooksUp k refresh target t (.ok (.lookup (.ofDecoded v)))
  | undecodable {row : Row τ} {now : τ} {touched : List (Mark τ)} {f : Failure}
      (live : row.isExpired now = false) (touch : Touched k refresh row now t.troubles touched)
      (fails : Payload.decode row.payload.value target (some k) = .error f)
      (marks : t.marks = [.committed (.fetch k.text) (some row), .read now] ++ touched) :
      LooksUp k refresh target t (.error f)

/-- How the found and the missing keys of a batch are counted. -/
def tallied (asked found : Nat) : List (Mark τ) :=
  (if found = 0 then [] else [.noted (.record .hits found)]) ++
    if found = asked then [] else [.noted (.record .misses ((asked : Int) - found))]

def Lists (pattern : String) (t : Trail τ) (r : Except Failure Answer) : Prop :=
  ∃ now keys, t.marks = [.read now, .committed (.liveKeys (likeOfGlob pattern) now) keys] ∧
    r = .ok (.texts keys)

/-- The account of a count that was recalled, or taken anew. -/
inductive Sizes (c : Config τ) (t : Trail τ) : Except Failure Answer → Prop
  | recalled {now at' : τ} {m : SizeMemo τ} {n : Nat} (counted : m.counted = some (n, at'))
      (fresh : Instant.before (Instant.minus now at') c.sizeWindow = true)
      (marks : t.marks = [.read now, .recalled m]) : Sizes c t (.ok (.count n))
  | counted {now : τ} {m₀ m : SizeMemo τ} {n : Nat}
      (stale : ∀ n' at', m₀.counted = some (n', at') →
        Instant.before (Instant.minus now at') c.sizeWindow = false)
      (marks : t.marks = [.read now, .recalled m₀, .recalled m, .committed (.countLive now) n,
        .noted (.keepSize m.generation n now)]) : Sizes c t (.ok (.count n))

/-! ## Writes and removals -/

/-- The account of a conditional insertion that may be tried so many times. -/
inductive Inserts (w : Written) (value : Value) :
    Nat → List (Mark τ) → Except Failure Answer → Prop
  | unsettled : Inserts w value 0 []
      (.error (.complaint ⟨.unsettled, some "put_if_absent", some w.key⟩))
  | inserted (left : Nat) (now : τ) {told : List (Mark τ)}
      (announced : Announced [.put w.key value] told) : Inserts w value (left + 1)
      ([.read now, .committed (.writeIfAbsent w.key.text (w.row now) now) .inserted,
        .noted (.record .puts 1), .noted .forgetSize] ++ told) (.ok (.lookup .miss))
  | present (left : Nat) (now : τ) (row : Row τ) : Inserts w value (left + 1)
      [.read now, .committed (.writeIfAbsent w.key.text (w.row now) now) (.present row)]
      ((Payload.decode row.payload.value none (some w.key)).map (.lookup ∘ .ofDecoded))
  | neither (left : Nat) (now : τ) {ms : List (Mark τ)} {r : Except Failure Answer}
      (rest : Inserts w value left ms r) : Inserts w value (left + 1)
      (.read now :: .committed (.writeIfAbsent w.key.text (w.row now) now) .neither :: ms) r

omit [Instant τ] in
/-- What is left of the removal of keys, if there were any. -/
inductive Removed : List String → List (Mark τ) → Prop
  | none : Removed [] []
  | some {keys : List String} {told : List (Mark τ)} (any : keys ≠ [])
      (announced : Announced (keys.map fun k => .evict (.plain k)) told) :
      Removed keys ([.noted (.record .evictions keys.length), .noted .forgetSize] ++ told)

/-! ## All calls -/

/-- What a call leaves behind and answers, if it does not end for trouble with the storage. -/
def Accounts (c : Config τ) (call : Call) (t : Trail τ) (r : Except Failure Answer) : Prop :=
  match call with
  | .get key refresh target => Vetted (Arguments.key key "get") t r fun k =>
      LooksUp k refresh target t r
  | .containsKey key => Vetted (Arguments.key key "contains_key") t r fun k =>
      ∃ now b, t.marks = [.read now, .committed (.isLive k.text now) b] ∧ r = .ok (.bool b)
  | .getAll keys target => Vetted (Arguments.keys keys "get_all") t r fun ks =>
      if ks.isEmpty then t.marks = [] ∧ r = .ok (.found [])
      else ∃ rows now, match liveValues target now rows with
        | .ok found => r = .ok (.found (ks.filterMap fun k => (found.lookup k.text).map (k, ·))) ∧
            t.marks = [.committed (.fetchMany (ks.map (·.text))) rows, .read now] ++
              tallied ks.length found.length
        | .error f => r = .error f ∧
            t.marks = [.committed (.fetchMany (ks.map (·.text))) rows, .read now]
  | .getKeys pattern => Vetted (Arguments.pattern pattern "get_keys") t r fun g => Lists g t r
  | .getAllKeys => Lists "*" t r
  | .getRemainingTtl key => Vetted (Arguments.key key "get_remaining_ttl") t r fun k =>
      (∃ deeds, FetchedLive k.text deeds none ∧ t.marks = deeds.map Deed.mark ∧
        r = .ok (.optional .duration none)) ∨
      ∃ row deeds now, FetchedLive k.text deeds (some row) ∧
        t.marks = deeds.map Deed.mark ++ [.read now] ∧
        r = ((row.lifetime.remainingDuration now).mapError .duration).map (.optional .duration)
  | .getTtlPolicy key => Vetted (Arguments.key key "get_ttl_policy") t r fun k =>
      ∃ deeds found, FetchedLive k.text deeds found ∧ t.marks = deeds.map Deed.mark ∧
        r = .ok (.optional Policy.toValue (found.map fun row => Policy.ofStored row.policy))
  | .size => Sizes c t r
  | .put key value ttl policy => Vetted (Arguments.written c "put" key value ttl policy) t r
      fun w => ∃ now told, Announced [.put w.key value] told ∧
        t.marks = [.read now, .committed (.write [(w.key.text, w.row now)]) (),
          .noted (.record .puts 1), .noted .forgetSize] ++ told ∧ r = .ok .nothing
  | .putIfAbsent key value ttl policy =>
      Vetted (Arguments.written c "put_if_absent" key value ttl policy) t r fun w =>
        Inserts w value Operation.insertionAttempts t.marks r
  | .putAll entries ttl policy => Vetted (Arguments.writtenMany c entries ttl policy) t r
      fun w => if entries.isTruthy then
          ∃ now told, Announced (w.entries.map fun e => .put e.key e.value) told ∧
            t.marks = [.read now, .committed (.write (w.rows now)) (),
              .noted (.record .puts w.entries.length), .noted .forgetSize] ++ told ∧
            r = .ok (.count w.entries.length)
        else t.marks = [] ∧ r = .ok (.count 0)
  | .refreshTtl key ttl policy => Vetted (Arguments.renewal key ttl policy) t r fun w =>
      ∃ now b, t.marks = [.read now, .committed (.extend w.key.text w.ttl w.policy now) b] ++
        (if b then [.noted .forgetSize] else []) ∧ r = .ok (.bool b)
  | .evict key => Vetted (Arguments.key key "evict") t r fun k =>
      (t.marks = [.committed (.remove k.text) false] ∧ r = .ok (.bool false)) ∨
      ∃ told, Announced [.evict k] told ∧ t.marks = [.committed (.remove k.text) true,
        .noted (.record .evictions 1), .noted .forgetSize] ++ told ∧ r = .ok (.bool true)
  | .evictAll keys => Vetted (Arguments.keys keys "evict_all") t r fun ks =>
      if ks.isEmpty then t.marks = [] ∧ r = .ok (.count 0)
      else ∃ removed told, Removed removed told ∧
        t.marks = .committed (.removeMany (ks.map (·.text))) removed :: told ∧
        r = .ok (.count removed.length)
  | .evictByPattern pattern => Vetted (Arguments.pattern pattern "evict_by_pattern") t r fun g =>
      ∃ removed told, Removed removed told ∧
        t.marks = .committed (.removeMatching (likeOfGlob g)) removed :: told ∧
        r = .ok (.count removed.length)
  | .clear => ∃ (n : Nat) (told : List (Mark τ)), Announced [.clear] told ∧
      t.marks = .committed .removeEvery n ::
        (if n = 0 then [] else [.noted (.record .evictions n)]) ++ .noted .forgetSize :: told ∧
      r = .ok (.count n)
  | .cleanupExpired => ∃ (now : τ) (n : Nat), r = .ok (.count n) ∧
      t.marks = [.read now, .committed (.removeExpired now) n] ++
        if 0 < n then [.noted .forgetSize] else []

variable [Delay τ]

/-- How a call ends for trouble with the storage.  What it does in passing does not end it with a
complaint. -/
inductive Broken (c : Config τ) (call : Call) (t : Trail τ) : Failure → Prop
  | clock {f : Failure} (met : .clock f ∈ t.troubles) : Broken c call t f
  | engine {f : Failure} {g : Option Failure} (met : .engine g ∈ t.troubles)
      (own : f.isRefusal = true → g = some f) : Broken c call t f
  | attempt {a : Transaction τ} {f g : Failure} (met : .attempt a g ∈ t.troubles)
      (made : call.Makes c t.deeds a) (reported : c.Reports g f)
      (strict : a.isCourtesy = true → f.complaint? = none) : Broken c call t f

/-- How a call ends: for trouble with the storage, having changed nothing, or with its account. -/
def Concludes (c : Config τ) (call : Call) (t : Trail τ) (r : Except Failure Answer) : Prop :=
  (∃ f, r = .error f ∧ t.marks.all Mark.isIdle = true ∧ Broken c call t f) ∨ Accounts c call t r

end

end Call

end ExpiringStore
