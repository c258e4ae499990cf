import ExpiringStore.Proofs.Call.Reads

/-!
# Writes and removals do what they may

Each write and each removal attempts only what its call may make and, if no step of the storage
failed or it succeeds all the same, ends as its call does; so does the program of every call.

    Serves c (put key …) (Operation.put c key …)                     (serves_put)
    call.program c follows the rule of call, from nothing on         (follows_program)
-/

namespace ExpiringStore

variable {τ : Type}

namespace Operation

open Call

/-! ## Checked arguments -/

section
variable {α β : Type}

theorem ofExcept_bind (x : Except Failure α) (f : α → Except Failure β) :
    (ofExcept (x >>= f) : Operation τ β) = ofExcept x >>= fun a => ofExcept (f a) := by
  cases x <;> rfl

/-- The arguments of a write, checked one by one, are checked as a whole. -/
theorem checked_written (c : Config τ) (operation : String) (key value ttl policy : Value)
    (rest : Key → Option Int → Policy → Json → Operation τ α) :
    (do
      let key ← ofExcept (Arguments.key key operation)
      let ttl ← ofExcept (Arguments.ttlOr c.defaultTtl ttl operation (some key))
      let policy ← ofExcept (Arguments.policy policy operation (some key))
      let payload ← ofExcept (Arguments.payload c.allowNull key value operation)
      rest key ttl policy payload) = (do
      let w ← ofExcept (Arguments.written c operation key value ttl policy)
      rest w.key w.ttl w.policy w.payload) := by
  simp only [Arguments.written, ofExcept_bind, bind_assoc]
  rfl

theorem checked_renewal (key ttl policy : Value) (rest : Key → Int → Policy → Operation τ α) :
    (do
      let key ← ofExcept (Arguments.key key "refresh_ttl")
      let ttl ← ofExcept (Arguments.ttlGiven ttl "refresh_ttl" (some key))
      let policy ← ofExcept (Arguments.policy policy "refresh_ttl" (some key))
      rest key ttl policy) = (do
      let w ← ofExcept (Arguments.renewal key ttl policy)
      rest w.key w.ttl w.policy) := by
  simp only [Arguments.renewal, ofExcept_bind, bind_assoc]
  rfl

variable {permits : List (Deed τ) → Transaction τ → Prop} {p : Past τ}
  {ok : Past τ → α → Prop} {bad : Past τ → Failure → Prop}

theorem follows_written {c : Config τ} {operation : String} {key value ttl policy : Value}
    {rest : Key → Option Int → Policy → Json → Operation τ α}
    (hok : ∀ w, Arguments.written c operation key value ttl policy = .ok w →
      Follows permits ok bad (rest w.key w.ttl w.policy w.payload) p)
    (hbad : ∀ f, Arguments.written c operation key value ttl policy = .error f → bad p f) :
    Follows permits ok bad (do
      let key ← ofExcept (Arguments.key key operation)
      let ttl ← ofExcept (Arguments.ttlOr c.defaultTtl ttl operation (some key))
      let policy ← ofExcept (Arguments.policy policy operation (some key))
      let payload ← ofExcept (Arguments.payload c.allowNull key value operation)
      rest key ttl policy payload) p := by
  rw [checked_written]
  exact follows_checked hok hbad

theorem follows_renewal {key ttl policy : Value} {rest : Key → Int → Policy → Operation τ α}
    (hok : ∀ w, Arguments.renewal key ttl policy = .ok w →
      Follows permits ok bad (rest w.key w.ttl w.policy) p)
    (hbad : ∀ f, Arguments.renewal key ttl policy = .error f → bad p f) :
    Follows permits ok bad (do
      let key ← ofExcept (Arguments.key key "refresh_ttl")
      let ttl ← ofExcept (Arguments.ttlGiven ttl "refresh_ttl" (some key))
      let policy ← ofExcept (Arguments.policy policy "refresh_ttl" (some key))
      rest key ttl policy) p := by
  rw [checked_renewal]
  exact follows_checked hok hbad

end

variable [Instant τ] [Delay τ]

/-! ## Writes -/

theorem serves_put (c : Config τ) (key value ttl policy : Value) :
    Serves c (.put key value ttl policy) (fun _ => .nothing) (put c key value ttl policy) := by
  unfold Serves put
  refine follows_written (fun w hw => ?_) (fun f hf _ => checked_error hf)
  refine follows_started c ?_
  refine follows_clocked fun now => ?_
  refine follows_transacted (a := .write [(w.key.text, w.row now)]) c ?_ fun _ _ => ?_
  · exact .put hw (by simp)
  · simp only [follows_bind, follows_bookkeep, follows_log]
    exact follows_announce _ fun _ => checked_ok hw ⟨now, rfl, rfl⟩

/-- A conditional insertion reads the clock anew for each attempt.  The induction is on the
attempts that are left; what was done before does not matter to the rule. -/
theorem follows_insertIfAbsent {permits : List (Deed τ) → Transaction τ → Prop} {p : Past τ}
    {ok : Past τ → Lookup → Prop} {bad : Past τ → Failure → Prop} (c : Config τ) (w : Written)
    (value : Value) (left : Nat)
    (hp : ∀ deeds now, permits (deeds ++ [.read now])
      (.writeIfAbsent w.key.text (w.row now) now))
    (hok : ∀ deeds b r, Inserted w left deeds (.ok (.lookup r)) → ok ⟨p.deeds ++ deeds, b⟩ r)
    (hbad : ∀ deeds b f, Inserted w left deeds (.error f) → bad ⟨p.deeds ++ deeds, b⟩ f)
    (hspoiled : ∀ (q : Past τ) f, bad q.spoiled f) :
    Follows permits ok bad (insertIfAbsent c w.key value w.payload w.ttl w.policy left) p := by
  induction left generalizing p with
  | zero =>
    have h := hbad [] p.smooth _ .unsettled
    rwa [List.append_nil] at h
  | succ left ih =>
    unfold insertIfAbsent
    rw [follows_bind, follows_readClock]
    refine ⟨fun now => ?_, fun f => hspoiled _ f⟩
    rw [follows_bind]
    refine follows_transact (a := .writeIfAbsent w.key.text (w.row now) now) c _ _
      (hp _ now) (fun b reply => ?_) fun f => hspoiled _ f
    rw [Past.add_deeds, List.append_assoc]
    cases reply with
    | inserted =>
      simp only [follows_bind, follows_bookkeep, follows_log]
      exact follows_announce _ (hok _ b _ (.inserted left now))
    | present row =>
      have hend : Inserted w (left + 1) _ _ := .present left now row
      dsimp only
      rw [follows_bind, follows_log]
      refine follows_checked (fun v hv => ?_) fun f hf => ?_
      · rw [hv] at hend
        exact hok _ b _ hend
      · rw [hf] at hend
        exact hbad _ b _ hend
    | neither =>
      dsimp only
      rw [follows_bind, follows_log]
      refine ih (fun deeds b r h => ?_) (fun deeds b f h => ?_)
      · simpa using hok _ b r (.neither left now h)
      · simpa using hbad _ b f (.neither left now h)

theorem serves_putIfAbsent (c : Config τ) (key value ttl policy : Value) :
    Serves c (.putIfAbsent key value ttl policy) .lookup (putIfAbsent c key value ttl policy) := by
  unfold Serves putIfAbsent
  refine follows_written (fun w hw => ?_) (fun f hf _ => checked_error hf)
  refine follows_started c ?_
  refine follows_insertIfAbsent c w value insertionAttempts (fun deeds now => ?_)
    (fun deeds _ r h _ => ?_) (fun deeds _ f h _ => ?_) fun _ _ => endsSo_spoiled _ _
  · exact .putIfAbsent hw (by simp)
  · exact checked_ok hw h
  · exact checked_ok hw h

theorem serves_putAll (c : Config τ) (entries ttl policy : Value) :
    Serves c (.putAll entries ttl policy) .count (putAll c entries ttl policy) := by
  have hrefused : ∀ f, Arguments.writtenMany c entries ttl policy = .error f →
      EndsSo c (.putAll entries ttl policy) {} (.error f) := fun f hf _ => checked_error hf
  unfold Arguments.writtenMany at hrefused
  unfold Serves putAll
  refine follows_checked (fun n hn => ?_) fun f hf => hrefused f (by rw [hf]; rfl)
  refine follows_checked (fun o ho => ?_) fun f hf =>
    hrefused f (by simp [hn, hf, bind, Except.bind])
  split
  · next hfalsy =>
    replace hfalsy : entries.isTruthy = false := by simpa using hfalsy
    have hw : Arguments.writtenMany c entries ttl policy = .ok ⟨[], n, o⟩ := by
      simp [Arguments.writtenMany, hn, ho, hfalsy, bind, Except.bind, pure, Except.pure]
    refine fun _ => checked_ok hw ?_
    rw [if_neg (by simp [hfalsy])]
    exact ⟨rfl, rfl⟩
  · next htruthy =>
    replace htruthy : entries.isTruthy = true := by simpa using htruthy
    refine follows_checked (fun batch hbatch => ?_) fun f hf =>
      hrefused f (by simp [hn, ho, htruthy, hf, bind, Except.bind])
    have hw : Arguments.writtenMany c entries ttl policy = .ok ⟨batch, n, o⟩ := by
      simp [Arguments.writtenMany, hn, ho, htruthy, hbatch, bind, Except.bind, pure, Except.pure]
    refine follows_started c ?_
    refine follows_clocked fun now => ?_
    refine follows_transacted (a := .write (WrittenMany.rows ⟨batch, n, o⟩ now)) c ?_ ?_
    · exact .putAll hw (by simp)
    · intro b _
      simp only [follows_bind, follows_bookkeep, follows_log]
      refine follows_announceAll (fun _ => checked_ok hw ?_) _
      rw [if_pos htruthy]
      exact ⟨now, rfl, rfl⟩

theorem serves_refreshTtl (c : Config τ) (key ttl policy : Value) :
    Serves c (.refreshTtl key ttl policy) .bool (refreshTtl c key ttl policy) := by
  unfold Serves refreshTtl
  refine follows_renewal (fun w hw => ?_) (fun f hf _ => checked_error hf)
  refine follows_started c ?_
  refine follows_clocked fun now => ?_
  refine follows_transacted (a := .extend w.key.text w.ttl w.policy now) c ?_ fun _ b => ?_
  · exact .refreshTtl hw (by simp)
  · have hend : Ends c (.refreshTtl key ttl policy)
        [.read now, .committed (.extend w.key.text w.ttl w.policy now) b] (.ok (.bool b)) :=
      checked_ok hw ⟨now, b, rfl, rfl⟩
    cases b with
    | true =>
      simp only [if_true, follows_bind, follows_bookkeep, follows_log]
      exact fun _ => hend
    | false =>
      simp only [if_false, Bool.false_eq_true, follows_bind, follows_log]
      exact fun _ => hend

/-! ## Removals -/

theorem serves_evict (c : Config τ) (key : Value) :
    Serves c (.evict key) .bool (evict c key) := by
  unfold Serves evict
  refine follows_checked (fun k hk => ?_) (fun f hf _ => checked_error hf)
  refine follows_started c ?_
  refine follows_transacted (a := .remove k.text) c (.evict hk) fun _ b => ?_
  have hend : Ends c (.evict key) [.committed (.remove k.text) b] (.ok (.bool b)) :=
    checked_ok hk ⟨b, rfl, rfl⟩
  rw [follows_bind, follows_log]
  cases b with
  | true =>
    simp only [if_true, follows_bind, follows_bookkeep]
    exact follows_announce _ fun _ => hend
  | false => exact fun _ => hend

omit [Instant τ] [Delay τ] in
theorem follows_afterRemoval {permits : List (Deed τ) → Transaction τ → Prop} {p : Past τ}
    {ok : Past τ → Unit → Prop} {bad : Past τ → Failure → Prop} (keys : List String)
    (hok : ok p ()) : Follows permits ok bad (afterRemoval keys) p := by
  unfold afterRemoval
  split
  · exact hok
  · simp only [follows_bind, follows_bookkeep]
    exact follows_announceAll hok _

theorem serves_evictAll (c : Config τ) (keys : Value) :
    Serves c (.evictAll keys) .count (evictAll c keys) := by
  unfold Serves evictAll
  refine follows_checked (fun ks hks => ?_) (fun f hf _ => checked_error hf)
  split
  · next hempty =>
    refine fun _ => checked_ok hks ?_
    rw [if_pos hempty]
    exact ⟨rfl, rfl⟩
  · next hsome =>
    refine follows_started c ?_
    refine follows_transacted (a := .removeMany (ks.map (·.text))) c ?_ ?_
    · exact .evictAll hks
    · intro b removed
      rw [follows_bind]
      refine follows_afterRemoval removed fun _ => checked_ok hks ?_
      rw [if_neg hsome]
      exact ⟨removed, rfl, rfl⟩

theorem serves_evictByPattern (c : Config τ) (pattern : Value) :
    Serves c (.evictByPattern pattern) .count (evictByPattern c pattern) := by
  unfold Serves evictByPattern
  refine follows_checked (fun g hg => ?_) (fun f hf _ => checked_error hf)
  refine follows_started c ?_
  refine follows_transacted (a := .removeMatching (likeOfGlob g)) c ?_ ?_
  · exact .evictByPattern hg
  · intro b removed
    have hend : EndsSo c (.evictByPattern pattern)
        ⟨[.committed (.removeMatching (likeOfGlob g)) removed], b⟩ (.ok (.count removed.length)) :=
      fun _ => checked_ok hg ⟨removed, rfl, rfl⟩
    dsimp only
    split
    · rw [follows_bind, follows_log, follows_bind]
      exact follows_afterRemoval removed hend
    · rw [follows_bind]
      exact follows_afterRemoval removed hend

theorem serves_clear (c : Config τ) : Serves c .clear .count (clear c) := by
  unfold Serves clear
  refine follows_started c ?_
  refine follows_transacted (a := .removeEvery) c .clear ?_
  intro b n
  have hend : EndsSo c .clear ⟨[.committed .removeEvery n], b⟩ (.ok (.count n)) :=
    fun _ => ⟨n, rfl, rfl⟩
  dsimp only
  split
  · simp only [follows_bind, follows_bookkeep, follows_log]
    exact follows_announce _ hend
  · simp only [follows_bind, follows_bookkeep, follows_log]
    exact follows_announce _ hend

theorem serves_cleanupExpired (c : Config τ) :
    Serves c .cleanupExpired .count (cleanupExpired c) := by
  unfold Serves cleanupExpired
  refine follows_started c ?_
  refine follows_clocked fun now => ?_
  refine follows_transacted (a := .removeExpired now) c ?_ ?_
  · exact .cleanupExpired (by simp)
  · intro b n
    have hend : EndsSo c .cleanupExpired ⟨[.read now, .committed (.removeExpired now) n], b⟩
        (.ok (.count n)) := fun _ => ⟨now, n, rfl, rfl⟩
    dsimp only
    split
    · rw [follows_bind, follows_bookkeep, follows_bind, follows_log]
      exact hend
    · rw [follows_bind, follows_log]
      exact hend

end Operation

/-- The program of a call attempts only what the call may make, and ends as the call does. -/
theorem Call.follows_program [Instant τ] [Delay τ] (c : Config τ) (call : Call) :
    Program.Follows (Makes c call) (EndsSo c call) (ExceptT.run (call.program c)) {} := by
  have serves : ∀ {α : Type} (answer : α → Answer) (x : Operation τ α),
      Operation.Serves c call answer x →
      Program.Follows (Makes c call) (EndsSo c call) (ExceptT.run (answer <$> x)) {} := by
    intro α answer x h
    have hmap : Operation.Follows (Makes c call) (fun p a => EndsSo c call p (.ok a))
        (fun p f => EndsSo c call p (.error f)) (answer <$> x) {} :=
      (Operation.follows_map answer x).2 h
    refine Program.Follows.mono (fun p r hr => ?_) hmap
    cases r with
    | ok a => exact hr
    | error f => exact hr
  cases call with
  | get key refresh target => exact serves _ _ (Operation.serves_get c key refresh target)
  | containsKey key => exact serves _ _ (Operation.serves_containsKey c key)
  | getAll keys target => exact serves _ _ (Operation.serves_getAll c keys target)
  | getKeys pattern => exact serves _ _ (Operation.serves_getKeys c pattern)
  | getAllKeys => exact serves _ _ (Operation.serves_getAllKeys c)
  | getRemainingTtl key => exact serves _ _ (Operation.serves_getRemainingTtl c key)
  | getTtlPolicy key => exact serves _ _ (Operation.serves_getTtlPolicy c key)
  | size => exact serves _ _ (Operation.serves_size c)
  | put key value ttl policy => exact serves _ _ (Operation.serves_put c key value ttl policy)
  | putIfAbsent key value ttl policy =>
    exact serves _ _ (Operation.serves_putIfAbsent c key value ttl policy)
  | putAll entries ttl policy => exact serves _ _ (Operation.serves_putAll c entries ttl policy)
  | refreshTtl key ttl policy => exact serves _ _ (Operation.serves_refreshTtl c key ttl policy)
  | evict key => exact serves _ _ (Operation.serves_evict c key)
  | evictAll keys => exact serves _ _ (Operation.serves_evictAll c keys)
  | evictByPattern pattern => exact serves _ _ (Operation.serves_evictByPattern c pattern)
  | clear => exact serves _ _ (Operation.serves_clear c)
  | cleanupExpired => exact serves _ _ (Operation.serves_cleanupExpired c)

end ExpiringStore
