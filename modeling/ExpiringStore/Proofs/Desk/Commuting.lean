import ExpiringStore.Proofs.Call.Accepted
import ExpiringStore.Proofs.Desk.Batches
import ExpiringStore.Proofs.Desk.Chores

/-!
# Calls about different keys

A call about one key is a chore about this key, whatever its other arguments are.  So at a steady
station two calls about different keys can be made in either order.

    a call about k        →   a chore about k, leaving all other rows           (chore_program)
    calls about k₁ ≠ k₂   →   the same answers, table, counters and counted size in either order
                                                                         (distinct_keys_commute)
-/

namespace ExpiringStore

variable {τ σ : Type} [Instant τ]

/-! ## Calls about one key -/

section
variable [Delay τ] {h : Station τ σ} {audience : σ → List ListenerId}
  (steady : h.Steady audience) (c : Config τ) {k : Key}
include steady

namespace Chore

theorem removeExpiredKey (now : τ) :
    Chore h audience k.text (Operation.removeExpiredKey c k now) := by
  unfold Operation.removeExpiredKey
  refine (bestEffort steady _ k (transact steady c _ _ (.removeExpiredKey now))).bind steady
    fun removed => ?_
  split
  · exact bookkeep rfl
  · exact pure ()

theorem touch (now : τ) : Chore h audience k.text (Operation.touch c k now) :=
  (bestEffort steady _ k (transact steady c _ _ (.touch now))).discard steady

theorem get {v : Value} (given : Arguments.key v "get" = .ok k) (refresh : Bool)
    (target : Option Target) : Chore h audience k.text (Operation.get c v refresh target) := by
  unfold Operation.get
  rw [given]
  show Chore h audience k.text (Operation.startup c >>= _)
  refine (startup steady c).bind steady fun _ => ?_
  refine (transact steady c _ _ .fetch).bind steady fun found => ?_
  cases found with
  | none =>
    exact (bookkeep rfl).bind steady fun _ => (log _).bind steady fun _ => pure _
  | some row =>
    refine readClock.bind steady fun now => (reportPolicy _ _).bind steady fun _ => ?_
    have hrest : Chore h audience k.text (do
        let value ← Operation.ofExcept (Payload.decode row.payload.value target (some k))
        Operation.bookkeep (.record .hits 1)
        Operation.logLookup "get" k true
        return Lookup.ofDecoded value) :=
      (decided _).bind steady fun value => (bookkeep rfl).bind steady fun _ =>
        (log _).bind steady fun _ => pure _
    split
    · exact (removeExpiredKey steady c now).bind steady fun _ => (bookkeep rfl).bind steady
        fun _ => (log _).bind steady fun _ => pure _
    · split
      · exact (touch steady c now).bind steady fun _ => hrest
      · exact hrest

theorem containsKey {v : Value} (given : Arguments.key v "contains_key" = .ok k) :
    Chore h audience k.text (Operation.containsKey c v) := by
  unfold Operation.containsKey
  rw [given]
  show Chore h audience k.text (Operation.startup c >>= _)
  exact (startup steady c).bind steady fun _ => readClock.bind steady fun now =>
    transact steady c _ _ (.isLive now)

theorem fetchLive (operation : String) :
    Chore h audience k.text (Operation.fetchLive c k operation) := by
  unfold Operation.fetchLive
  refine (transact steady c _ _ .fetch).bind steady fun found => ?_
  cases found with
  | none => exact pure _
  | some row =>
    exact (reportPolicy _ _).bind steady fun _ => readClock.bind steady fun now => pure _

theorem getRemainingTtl {v : Value} (given : Arguments.key v "get_remaining_ttl" = .ok k) :
    Chore h audience k.text (Operation.getRemainingTtl c v) := by
  unfold Operation.getRemainingTtl
  rw [given]
  show Chore h audience k.text (Operation.startup c >>= _)
  refine (startup steady c).bind steady fun _ => (fetchLive steady c _).bind steady fun found => ?_
  cases found with
  | none => exact pure _
  | some row => exact readClock.bind steady fun now => decided _

theorem getTtlPolicy {v : Value} (given : Arguments.key v "get_ttl_policy" = .ok k) :
    Chore h audience k.text (Operation.getTtlPolicy c v) := by
  unfold Operation.getTtlPolicy
  rw [given]
  show Chore h audience k.text (Operation.startup c >>= _)
  refine (startup steady c).bind steady fun _ => (fetchLive steady c _).bind steady fun found => ?_
  cases found with
  | none => exact pure _
  | some row => exact (reportPolicy _ _).bind steady fun _ => pure _

theorem put {v : Value} (given : Arguments.key v "put" = .ok k) (value ttl policy : Value) :
    Chore h audience k.text (Operation.put c v value ttl policy) := by
  unfold Operation.put
  rw [given]
  show Chore h audience k.text
    (Operation.ofExcept (Arguments.ttlOr c.defaultTtl ttl "put" k) >>= _)
  exact (decided _).bind steady fun ttl => (decided _).bind steady fun policy =>
    (decided _).bind steady fun payload => (startup steady c).bind steady fun _ =>
    readClock.bind steady fun now => (transact steady c _ _ (.write _)).bind steady fun _ =>
    (bookkeep rfl).bind steady fun _ => (bookkeep rfl).bind steady fun _ =>
    (log _).bind steady fun _ => announce steady _

theorem insertIfAbsent (value : Value) (payload : Json) (ttl : Option Int) (policy : Policy)
    (left : Nat) :
    Chore h audience k.text (Operation.insertIfAbsent c k value payload ttl policy left) := by
  induction left with
  | zero => exact throw _
  | succ left ih =>
    unfold Operation.insertIfAbsent
    refine readClock.bind steady fun now =>
      (transact steady c _ _ (.writeIfAbsent _ now)).bind steady fun reply => ?_
    cases reply with
    | inserted =>
      exact (bookkeep rfl).bind steady fun _ => (bookkeep rfl).bind steady fun _ =>
        (log _).bind steady fun _ => (announce steady _).bind steady fun _ => pure _
    | present row =>
      exact (log _).bind steady fun _ => (decided _).bind steady fun found => pure _
    | neither => exact (log _).bind steady fun _ => ih

theorem putIfAbsent {v : Value} (given : Arguments.key v "put_if_absent" = .ok k)
    (value ttl policy : Value) :
    Chore h audience k.text (Operation.putIfAbsent c v value ttl policy) := by
  unfold Operation.putIfAbsent
  rw [given]
  show Chore h audience k.text
    (Operation.ofExcept (Arguments.ttlOr c.defaultTtl ttl "put_if_absent" k) >>= _)
  exact (decided _).bind steady fun ttl => (decided _).bind steady fun policy =>
    (decided _).bind steady fun payload => (startup steady c).bind steady fun _ =>
    insertIfAbsent steady c value payload ttl policy _

theorem refreshTtl {v : Value} (given : Arguments.key v "refresh_ttl" = .ok k)
    (ttl policy : Value) : Chore h audience k.text (Operation.refreshTtl c v ttl policy) := by
  unfold Operation.refreshTtl
  rw [given]
  show Chore h audience k.text (Operation.ofExcept (Arguments.ttlGiven ttl "refresh_ttl" k) >>= _)
  refine (decided _).bind steady fun ttl => (decided _).bind steady fun policy =>
    (startup steady c).bind steady fun _ => readClock.bind steady fun now =>
    (transact steady c _ _ (.extend ttl policy now)).bind steady fun updated => ?_
  cases updated with
  | true => exact (bookkeep rfl).bind steady fun _ => (log _).bind steady fun _ => pure _
  | false => exact (log _).bind steady fun _ => pure _

theorem evict {v : Value} (given : Arguments.key v "evict" = .ok k) :
    Chore h audience k.text (Operation.evict c v) := by
  unfold Operation.evict
  rw [given]
  show Chore h audience k.text (Operation.startup c >>= _)
  refine (startup steady c).bind steady fun _ => (transact steady c _ _ .remove).bind steady
    fun removed => (log _).bind steady fun _ => ?_
  cases removed with
  | true =>
    exact (bookkeep rfl).bind steady fun _ => (bookkeep rfl).bind steady fun _ =>
      (announce steady _).bind steady fun _ => pure _
  | false => exact pure _

end Chore

end

/-- The argument that a call about one key takes for the key. -/
def Call.keyArgument? : Call → Option Value
  | .get key _ _ | .containsKey key | .getRemainingTtl key | .getTtlPolicy key | .put key _ _ _
  | .putIfAbsent key _ _ _ | .refreshTtl key _ _ | .evict key => some key
  | _ => none

def Call.IsAbout (call : Call) (k : Key) : Prop :=
  ∃ v operation, call.keyArgument? = some v ∧ Arguments.key v operation = .ok k

namespace Station

variable [Delay τ] {h : Station τ σ} {audience : σ → List ListenerId} {c : Config τ}
  {first second : Call} {k₁ k₂ : Key} {s : σ}

/-- A call about a key is a chore about it. -/
theorem Steady.chore_program (steady : h.Steady audience) (c : Config τ) {call : Call} {k : Key}
    (about : call.IsAbout k) : Chore h audience k.text (call.program c) := by
  obtain ⟨v, operation, hv, given⟩ := about
  have hgiven := Arguments.key_accepted given
  cases call with
  | get key refresh target =>
    obtain rfl := Option.some.inj hv
    exact (Chore.get steady c (hgiven _) refresh target).map steady _
  | containsKey key =>
    obtain rfl := Option.some.inj hv
    exact (Chore.containsKey steady c (hgiven _)).map steady _
  | getRemainingTtl key =>
    obtain rfl := Option.some.inj hv
    exact (Chore.getRemainingTtl steady c (hgiven _)).map steady _
  | getTtlPolicy key =>
    obtain rfl := Option.some.inj hv
    exact (Chore.getTtlPolicy steady c (hgiven _)).map steady _
  | put key value ttl policy =>
    obtain rfl := Option.some.inj hv
    exact (Chore.put steady c (hgiven _) value ttl policy).map steady _
  | putIfAbsent key value ttl policy =>
    obtain rfl := Option.some.inj hv
    exact (Chore.putIfAbsent steady c (hgiven _) value ttl policy).map steady _
  | refreshTtl key ttl policy =>
    obtain rfl := Option.some.inj hv
    exact (Chore.refreshTtl steady c (hgiven _) ttl policy).map steady _
  | evict key =>
    obtain rfl := Option.some.inj hv
    exact (Chore.evict steady c (hgiven _)).map steady _
  | _ => cases hv

/-- Chores about different keys come out one after the other as each of them comes out alone. -/
theorem Steady.each_pair (steady : h.Steady audience) (hne : k₂.text ≠ k₁.text) {now : τ}
    {ls : List ListenerId} {row₁ row₂ : Option (Row τ)} {u v : Upshot τ Answer}
    (hu : ComesOut h audience k₁.text (first.program c) now ls row₁ u)
    (hv : ComesOut h audience k₂.text (second.program c) now ls row₂ v)
    (hclock : h.clock s = now) (haudience : audience s = ls)
    (found₁ : (h.desk s).table.find? k₁.text = row₁)
    (found₂ : (h.desk s).table.find? k₂.text = row₂) :
    (h.each c [first, second] s).1 = [u.answer, v.answer] ∧
      h.desk (h.each c [first, second] s).2 =
        ((h.desk s).served k₁.text u).served k₂.text v := by
  obtain ⟨hanswer, hdesk⟩ := hu s hclock haudience found₁
  have hkind := Program.kind_run steady.stays_kind (ExceptT.run (first.program c))
    ⟨hclock, haudience⟩
  obtain ⟨hanswer', hdesk'⟩ := hv _ hkind.1 hkind.2 <| by
    rw [hdesk]
    exact (Table.find?_assign_of_ne hne _ _).trans found₂
  exact ⟨congrArg₂ (fun r r' => [r, r']) hanswer hanswer', hdesk'.trans (hdesk ▸ rfl)⟩

/-- Calls that answer and leave the same in either order; listeners hear the same of each. -/
structure Commutes (h : Station τ σ) (c : Config τ) (first second : Call) (s : σ) : Prop where
  answers : (h.each c [second, first] s).1 = (h.each c [first, second] s).1.reverse
  table : (h.desk (h.each c [second, first] s).2).table =
    (h.desk (h.each c [first, second] s).2).table
  statistics : (h.desk (h.each c [second, first] s).2).statistics =
    (h.desk (h.each c [first, second] s).2).statistics
  memo : (h.desk (h.each c [second, first] s).2).memo = (h.desk (h.each c [first, second] s).2).memo
  heard : ∃ told told', (h.desk (h.each c [first, second] s).2).heard =
      (h.desk s).heard ++ told ++ told' ∧
    (h.desk (h.each c [second, first] s).2).heard = (h.desk s).heard ++ told' ++ told

/-- A call about a key changes the row of no other key. -/
theorem Steady.other_rows (steady : h.Steady audience) (about : first.IsAbout k₁) {key : String}
    (hne : key ≠ k₁.text) (s : σ) :
    (h.desk (h.answer c first s).2).table.find? key = (h.desk s).table.find? key := by
  obtain ⟨u, hu⟩ := steady.chore_program c about (h.clock s) (audience s) _
  refine (congrArg (·.table.find? key) (hu s rfl rfl rfl).2).trans ?_
  exact Table.find?_assign_of_ne hne _ _

/-- Calls about different keys commute, and neither changes the row of the other key. -/
theorem distinct_keys_commute (steady : h.Steady audience) (c : Config τ) (s : σ)
    (about₁ : first.IsAbout k₁) (about₂ : second.IsAbout k₂) (distinct : k₁.text ≠ k₂.text) :
    h.Commutes c first second s ∧
      (∀ key, key ≠ k₁.text → (h.desk (h.answer c first s).2).table.find? key =
        (h.desk s).table.find? key) ∧
      ∀ key, key ≠ k₂.text → (h.desk (h.answer c second s).2).table.find? key =
        (h.desk s).table.find? key := by
  refine ⟨?_, fun key hne => steady.other_rows about₁ hne s,
    fun key hne => steady.other_rows about₂ hne s⟩
  obtain ⟨u, hu⟩ := steady.chore_program c about₁ (h.clock s) (audience s)
    ((h.desk s).table.find? k₁.text)
  obtain ⟨v, hv⟩ := steady.chore_program c about₂ (h.clock s) (audience s)
    ((h.desk s).table.find? k₂.text)
  obtain ⟨hthere, hdesk⟩ := steady.each_pair distinct.symm hu hv rfl rfl rfl rfl
  obtain ⟨hback, hdesk'⟩ := steady.each_pair distinct hv hu rfl rfl rfl rfl
  have hcomm := Desk.served_comm distinct (h.desk s) u v
  rw [← hdesk, ← hdesk'] at hcomm
  exact {
    answers := by rw [hback, hthere]; rfl
    table := (congrArg Desk.table hcomm).symm
    statistics := (congrArg Desk.statistics hcomm).symm
    memo := (congrArg Desk.memo hcomm).symm
    heard := ⟨u.told, v.told, congrArg Desk.heard hdesk, congrArg Desk.heard hdesk'⟩ }

/-- A lookup that finds its row expired and a write commute: the one removes its row and counts a
miss, the other writes and is heard of. -/
theorem commute_mixed :
    noticed.Commutes .plain (.get (.str "b")) (.put (.str "a") (.int 5) .none (.str "ABSOLUTE"))
        mixed ∧
      (noticed.each .plain [.get (.str "b"), .put (.str "a") (.int 5) .none (.str "ABSOLUTE")]
        mixed).1 = [.ok (.lookup .miss), .ok .nothing] := by
  have about : Call.IsAbout (.get (.str "b")) (.plain "b") := ⟨.str "b", "get", rfl, rfl⟩
  have about' : Call.IsAbout (.put (.str "a") (.int 5) .none (.str "ABSOLUTE")) (.plain "a") :=
    ⟨.str "a", "put", rfl, rfl⟩
  exact ⟨(distinct_keys_commute (steady_attended [⟨"onlooker", "Onlooker"⟩]) .plain mixed about
    about' (by decide)).1, by rfl⟩

end Station

end ExpiringStore
