import ExpiringStore.Proofs.Call.AccountedReads
import ExpiringStore.Proofs.Call.Writes

/-!
# Writes and removals account for themselves

Each write and each removal keeps its books by the rule and ends, wherever it ends, as its account
says or for a trouble with the storage; so does the program of every call.

    Keeps c (put key …) (Operation.put c key …)                          (keeps_put)
    call.program c concludes as its call does, from nothing on           (concludes_program)
-/

namespace ExpiringStore

variable {τ : Type}

namespace Operation

open Call

/-! ## Checked arguments -/

section
variable {α : Type} {books : List (Mark τ) → Bookkeeping τ → Prop} {t : Trail τ}
  {ok : Trail τ → α → Prop} {bad : Trail τ → Failure → Prop}

theorem traces_written {c : Config τ} {operation : String} {key value ttl policy : Value}
    {rest : Key → Option Int → Policy → Json → Operation τ α}
    (hok : ∀ w, Arguments.written c operation key value ttl policy = .ok w →
      Traces books ok bad (rest w.key w.ttl w.policy w.payload) t)
    (hbad : ∀ f, Arguments.written c operation key value ttl policy = .error f → bad t f) :
    Traces books ok bad (do
      let key ← ofExcept (Arguments.key key operation)
      let ttl ← ofExcept (Arguments.ttlOr c.defaultTtl ttl operation (some key))
      let policy ← ofExcept (Arguments.policy policy operation (some key))
      let payload ← ofExcept (Arguments.payload c.allowNull key value operation)
      rest key ttl policy payload) t := by
  rw [checked_written]
  exact traces_checked hok hbad

theorem traces_renewal {key ttl policy : Value} {rest : Key → Int → Policy → Operation τ α}
    (hok : ∀ w, Arguments.renewal key ttl policy = .ok w →
      Traces books ok bad (rest w.key w.ttl w.policy) t)
    (hbad : ∀ f, Arguments.renewal key ttl policy = .error f → bad t f) :
    Traces books ok bad (do
      let key ← ofExcept (Arguments.key key "refresh_ttl")
      let ttl ← ofExcept (Arguments.ttlGiven ttl "refresh_ttl" (some key))
      let policy ← ofExcept (Arguments.policy policy "refresh_ttl" (some key))
      rest key ttl policy) t := by
  rw [checked_renewal]
  exact traces_checked hok hbad

end

variable [Instant τ] [Delay τ]

/-! ## Writes -/

theorem keeps_put (c : Config τ) (key value ttl policy : Value) :
    Keeps c (.put key value ttl policy) (fun _ => .nothing) (put c key value ttl policy) := by
  unfold Keeps put
  refine traces_written (fun w hw => ?_) fun f hf => .inr (vetted_error hf)
  refine marked_started rfl ?_ {} rfl
  refine marked_clocked rfl fun now => ?_
  refine marked_transacted (a := .write [(w.key.text, w.row now)]) c rfl ?_ rfl fun _ => ?_
  · exact .put hw (by simp [Mark.deed?])
  refine marked_noted trivial (marked_noted trivial (marked_logged ?_))
  refine marked_announce _ fun told t htold ht => ?_
  exact .inr (vetted_ok hw ⟨now, told, htold, ht, rfl⟩)

/-- A conditional insertion reads the clock anew for each attempt.  The induction is on the
attempts that are left; what was done before has changed nothing. -/
theorem marked_insertIfAbsent {call : Call} {ok : Trail τ → Lookup → Prop} {ms : List (Mark τ)}
    (c : Config τ) (w : Written) (value : Value) (left : Nat)
    (idle : ms.all Mark.isIdle = true)
    (made : ∀ deeds now, .read now ∈ deeds →
      Makes c call deeds (.writeIfAbsent w.key.text (w.row now) now))
    (hok : ∀ rest r t, Inserts w value left rest (.ok (.lookup r)) → t.marks = ms ++ rest → ok t r)
    (hbad : ∀ rest f t, Inserts w value left rest (.error f) → t.marks = ms ++ rest →
      Concludes c call t (.error f)) :
    Marked Books ok (fun t f => Concludes c call t (.error f))
      (insertIfAbsent c w.key value w.payload w.ttl w.policy left) ms := by
  induction left generalizing ms with
  | zero => exact fun t ht => hbad [] _ t .unsettled (by simpa using ht)
  | succ left ih =>
    unfold insertIfAbsent
    refine marked_clocked idle fun now => ?_
    refine marked_transacted (a := .writeIfAbsent w.key.text (w.row now) now) c ?_ ?_ rfl
      fun reply => ?_
    · simp [idle, Mark.isIdle]
    · exact made _ now (by simp [Mark.deed?])
    rw [List.append_assoc]
    cases reply with
    | inserted =>
      refine marked_noted trivial (marked_noted trivial (marked_logged ?_))
      refine marked_bind (marked_announce _ fun told t htold ht => ?_)
      exact hok _ _ t (.inserted left now htold) (by simpa using ht)
    | present row =>
      have hend : Inserts w value (left + 1) _ _ := .present left now row
      refine marked_logged fun t ht => traces_checked (fun v hv => ?_) fun f hf => ?_
      · rw [hv] at hend
        exact hok _ _ t hend ht
      · rw [hf] at hend
        exact hbad _ _ t hend ht
    | neither =>
      refine marked_logged (ih ?_ (fun rest r t h ht => ?_) fun rest f t h ht => ?_)
      · simp [idle, Mark.isIdle, Transaction.isQuiet]
      · exact hok _ r t (.neither left now h) (by simpa using ht)
      · exact hbad _ f t (.neither left now h) (by simpa using ht)

theorem keeps_putIfAbsent (c : Config τ) (key value ttl policy : Value) :
    Keeps c (.putIfAbsent key value ttl policy) .lookup (putIfAbsent c key value ttl policy) := by
  unfold Keeps putIfAbsent
  refine traces_written (fun w hw => ?_) fun f hf => .inr (vetted_error hf)
  refine marked_started rfl ?_ {} rfl
  refine marked_insertIfAbsent c w value insertionAttempts rfl
    (fun deeds now read => .putIfAbsent hw read) (fun rest r t h ht => ?_) fun rest f t h ht => ?_
  · exact .inr (vetted_ok hw (by rw [ht]; exact h))
  · exact .inr (vetted_ok hw (by rw [ht]; exact h))

theorem keeps_putAll (c : Config τ) (entries ttl policy : Value) :
    Keeps c (.putAll entries ttl policy) .count (putAll c entries ttl policy) := by
  have hrefused : ∀ f, Arguments.writtenMany c entries ttl policy = .error f →
      Concludes c (.putAll entries ttl policy) {} (.error f) := fun f hf => .inr (vetted_error hf)
  unfold Arguments.writtenMany at hrefused
  unfold Keeps putAll
  refine traces_checked (fun n hn => ?_) fun f hf => hrefused f (by rw [hf]; rfl)
  refine traces_checked (fun o ho => ?_) fun f hf =>
    hrefused f (by simp [hn, hf, bind, Except.bind])
  split
  · next hfalsy =>
    replace hfalsy : entries.isTruthy = false := by simpa using hfalsy
    have hw : Arguments.writtenMany c entries ttl policy = .ok ⟨[], n, o⟩ := by
      simp [Arguments.writtenMany, hn, ho, hfalsy, bind, Except.bind, pure, Except.pure]
    refine .inr (vetted_ok hw ?_)
    rw [if_neg (by simp [hfalsy])]
    exact ⟨rfl, rfl⟩
  · next htruthy =>
    replace htruthy : entries.isTruthy = true := by simpa using htruthy
    refine traces_checked (fun batch hbatch => ?_) fun f hf =>
      hrefused f (by simp [hn, ho, htruthy, hf, bind, Except.bind])
    have hw : Arguments.writtenMany c entries ttl policy = .ok ⟨batch, n, o⟩ := by
      simp [Arguments.writtenMany, hn, ho, htruthy, hbatch, bind, Except.bind, pure, Except.pure]
    refine marked_started rfl ?_ {} rfl
    refine marked_clocked rfl fun now => ?_
    refine marked_transacted (a := .write (WrittenMany.rows ⟨batch, n, o⟩ now)) c rfl ?_ rfl ?_
    · exact .putAll hw (by simp [Mark.deed?])
    intro _
    refine marked_noted trivial (marked_noted trivial (marked_logged ?_))
    refine marked_bind (marked_announceAll _ fun told t htold ht => ?_)
    refine .inr (vetted_ok hw ?_)
    rw [if_pos htruthy]
    exact ⟨now, told, htold, ht, rfl⟩

theorem keeps_refreshTtl (c : Config τ) (key ttl policy : Value) :
    Keeps c (.refreshTtl key ttl policy) .bool (refreshTtl c key ttl policy) := by
  unfold Keeps refreshTtl
  refine traces_renewal (fun w hw => ?_) fun f hf => .inr (vetted_error hf)
  refine marked_started rfl ?_ {} rfl
  refine marked_clocked rfl fun now => ?_
  refine marked_transacted (a := .extend w.key.text w.ttl w.policy now) c rfl ?_ rfl fun b => ?_
  · exact .refreshTtl hw (by simp [Mark.deed?])
  cases b with
  | true =>
    refine marked_noted trivial (marked_logged fun t ht => ?_)
    exact .inr (vetted_ok hw ⟨now, true, ht, rfl⟩)
  | false =>
    refine marked_logged fun t ht => ?_
    exact .inr (vetted_ok hw ⟨now, false, ht, rfl⟩)

/-! ## Removals -/

theorem keeps_evict (c : Config τ) (key : Value) :
    Keeps c (.evict key) .bool (evict c key) := by
  unfold Keeps evict
  refine traces_checked (fun k hk => ?_) fun f hf => .inr (vetted_error hf)
  refine marked_started rfl ?_ {} rfl
  refine marked_transacted (a := .remove k.text) c rfl (.evict hk) rfl fun b => marked_logged ?_
  cases b with
  | true =>
    refine marked_noted trivial (marked_noted trivial ?_)
    refine marked_bind (marked_announce _ fun told t htold ht => ?_)
    exact .inr (vetted_ok hk (.inr ⟨told, htold, ht, rfl⟩))
  | false => exact fun t ht => .inr (vetted_ok hk (.inl ⟨ht, rfl⟩))

omit [Instant τ] [Delay τ] in
theorem marked_afterRemoval {ok : Trail τ → Unit → Prop} {bad : Trail τ → Failure → Prop}
    {ms : List (Mark τ)} (keys : List String)
    (hok : ∀ rest t, Removed keys rest → t.marks = ms ++ rest → ok t ()) :
    Marked Books ok bad (afterRemoval keys) ms := by
  unfold afterRemoval
  split
  · next hempty =>
    obtain rfl : keys = [] := List.isEmpty_iff.1 hempty
    exact fun t ht => hok [] t .none (by simpa using ht)
  · next hany =>
    refine marked_noted trivial (marked_noted trivial ?_)
    refine marked_announceAll _ fun told t htold ht => ?_
    exact hok _ t (.some (by simpa using hany) htold) (by simpa using ht)

theorem keeps_evictAll (c : Config τ) (keys : Value) :
    Keeps c (.evictAll keys) .count (evictAll c keys) := by
  unfold Keeps evictAll
  refine traces_checked (fun ks hks => ?_) fun f hf => .inr (vetted_error hf)
  split
  · next hempty =>
    refine .inr (vetted_ok hks ?_)
    rw [if_pos hempty]
    exact ⟨rfl, rfl⟩
  · next hsome =>
    refine marked_started rfl ?_ {} rfl
    refine marked_transacted (a := .removeMany (ks.map (·.text))) c ?_ ?_ rfl fun removed => ?_
    · rfl
    · exact .evictAll hks
    refine marked_bind (marked_afterRemoval removed fun rest t hrest ht => ?_)
    refine .inr (vetted_ok hks ?_)
    rw [if_neg hsome]
    exact ⟨removed, rest, hrest, ht, rfl⟩

theorem keeps_evictByPattern (c : Config τ) (pattern : Value) :
    Keeps c (.evictByPattern pattern) .count (evictByPattern c pattern) := by
  unfold Keeps evictByPattern
  refine traces_checked (fun g hg => ?_) fun f hf => .inr (vetted_error hf)
  refine marked_started rfl ?_ {} rfl
  refine marked_transacted (a := .removeMatching (likeOfGlob g)) c ?_ ?_ rfl fun removed => ?_
  · rfl
  · exact .evictByPattern hg
  have hrest : Marked Books
      (fun t a => Concludes c (.evictByPattern pattern) t (.ok (.count a)))
      (fun t f => Concludes c (.evictByPattern pattern) t (.error f))
      (afterRemoval removed >>= fun _ => pure removed.length)
      [.committed (.removeMatching (likeOfGlob g)) removed] := by
    refine marked_bind (marked_afterRemoval removed fun rest t hrest ht => ?_)
    exact .inr (vetted_ok hg ⟨removed, rest, hrest, ht, rfl⟩)
  dsimp only
  split
  · exact marked_logged hrest
  · exact hrest

theorem keeps_clear (c : Config τ) : Keeps c .clear .count (clear c) := by
  unfold Keeps clear
  refine marked_started rfl ?_ {} rfl
  refine marked_transacted (a := .removeEvery) c rfl .clear rfl fun (n : Nat) => ?_
  have hrest : ∀ counted : List (Mark τ),
      counted = (if n = 0 then [] else [.noted (.record .evictions n)]) →
      Marked Books (fun t a => Concludes c .clear t (.ok (.count a)))
        (fun t f => Concludes c .clear t (.error f)) (do
          bookkeep .forgetSize
          log ⟨.info, "Cache cleared", [("deleted", .int n)]⟩
          announce .clear
          return n) (.committed .removeEvery n :: counted) := by
    rintro counted rfl
    refine marked_noted trivial (marked_logged ?_)
    refine marked_bind (marked_announce _ fun told t htold ht => ?_)
    exact .inr ⟨n, told, htold, by simpa using ht, rfl⟩
  dsimp only
  split
  · next hany => exact marked_noted trivial (hrest _ (by rw [if_neg (by simpa using hany)]; rfl))
  · next hnone => exact hrest [] (by rw [if_pos (by simpa using hnone)])

theorem keeps_cleanupExpired (c : Config τ) :
    Keeps c .cleanupExpired .count (cleanupExpired c) := by
  unfold Keeps cleanupExpired
  refine marked_started rfl ?_ {} rfl
  refine marked_clocked rfl fun now => ?_
  refine marked_transacted (a := .removeExpired now) c rfl ?_ rfl fun (n : Nat) => ?_
  · exact .cleanupExpired (by simp [Mark.deed?])
  dsimp only
  split
  · next hany =>
    refine marked_noted trivial (marked_logged fun t ht => ?_)
    exact .inr ⟨now, n, rfl, by rw [if_pos hany]; exact ht⟩
  · next hnone =>
    refine marked_logged fun t ht => ?_
    exact .inr ⟨now, n, rfl, by rw [if_neg hnone]; simpa using ht⟩

end Operation

/-- The program of a call keeps its books by the rule, and ends as the call is to. -/
theorem Call.concludes_program [Instant τ] [Delay τ] (c : Config τ) (call : Call) :
    Program.Traces Books (Concludes c call) (ExceptT.run (call.program c)) {} := by
  have keeps : ∀ {α : Type} (answer : α → Answer) (x : Operation τ α),
      Operation.Keeps c call answer x →
      Program.Traces Books (Concludes c call) (ExceptT.run (answer <$> x)) {} := by
    intro α answer x h
    have hmap : Operation.Traces Books (fun t a => Concludes c call t (.ok a))
        (fun t f => Concludes c call t (.error f)) (answer <$> x) {} :=
      (Operation.traces_map answer x).2 h
    refine Program.Traces.mono (fun t r hr => ?_) hmap
    cases r with
    | ok a => exact hr
    | error f => exact hr
  cases call with
  | get key refresh target => exact keeps _ _ (Operation.keeps_get c key refresh target)
  | containsKey key => exact keeps _ _ (Operation.keeps_containsKey c key)
  | getAll keys target => exact keeps _ _ (Operation.keeps_getAll c keys target)
  | getKeys pattern => exact keeps _ _ (Operation.keeps_getKeys c pattern)
  | getAllKeys => exact keeps _ _ (Operation.keeps_getAllKeys c)
  | getRemainingTtl key => exact keeps _ _ (Operation.keeps_getRemainingTtl c key)
  | getTtlPolicy key => exact keeps _ _ (Operation.keeps_getTtlPolicy c key)
  | size => exact keeps _ _ (Operation.keeps_size c)
  | put key value ttl policy => exact keeps _ _ (Operation.keeps_put c key value ttl policy)
  | putIfAbsent key value ttl policy =>
    exact keeps _ _ (Operation.keeps_putIfAbsent c key value ttl policy)
  | putAll entries ttl policy => exact keeps _ _ (Operation.keeps_putAll c entries ttl policy)
  | refreshTtl key ttl policy => exact keeps _ _ (Operation.keeps_refreshTtl c key ttl policy)
  | evict key => exact keeps _ _ (Operation.keeps_evict c key)
  | evictAll keys => exact keeps _ _ (Operation.keeps_evictAll c keys)
  | evictByPattern pattern => exact keeps _ _ (Operation.keeps_evictByPattern c pattern)
  | clear => exact keeps _ _ (Operation.keeps_clear c)
  | cleanupExpired => exact keeps _ _ (Operation.keeps_cleanupExpired c)

end ExpiringStore
