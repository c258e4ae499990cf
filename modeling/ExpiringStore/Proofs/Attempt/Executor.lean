import ExpiringStore.Proofs.Attempt.Delays
import ExpiringStore.Proofs.Interleaving.Play

/-!
# A transaction that is tried again

A bench carries out what is asked for when a transaction is tried, and keeps count of it.  It is
decided beforehand which attempts fail, and how; what does not fail is carried out by the table, and
what fails leaves the table as it is.

    transient … transient, not transient      as many attempts, and the last one decides
    transient … transient                     as many attempts as there may be

Between two attempts there is a pause, and pauses grow up to their limit  (retries_exactly_once).
-/

namespace ExpiringStore

variable {τ α : Type}

/-- Does a failure of an attempt concern neither the store nor what it is built on? -/
def Failure.isForeign : Failure → Bool
  | .complaint _ => false
  | .fault f => f.kind.origin == .elsewhere
  | _ => true

/-- What concerns neither the storage nor the operating system is met again by every attempt. -/
theorem Fault.isTransient_of_elsewhere {f : Fault} (h : f.kind.origin = .elsewhere) :
    f.isTransient = false := by
  unfold isTransient
  cases hk : f.kind with
  | value | runtime => simp [Kind.carriesConnection, Kind.isTransient]
  | _ =>
    rw [hk] at h
    cases h

/-- An outcome that another attempt may not have. -/
def Passing : Except Failure α → Prop
  | .error (.fault f) => f.isTransient = true
  | _ => False

/-- What is answered after so many attempts, and the table that is left, by the outcome of the last
attempt. -/
inductive Verdict (operation : String) (key : Option Key) (n : Nat) (table : Table τ) :
    Except Failure (α × Table τ) → Except Failure α → Table τ → Prop
  | succeeded (r : α) (table' : Table τ) :
      Verdict operation key n table (.ok (r, table')) (.ok r) table'
  | complained (c : Complaint) :
      Verdict operation key n table (.error (.complaint c)) (.error (.complaint c)) table
  | foreign {f : Failure} (foreign : f.isForeign = true) :
      Verdict operation key n table (.error f) (.error f) table
  | refused {f : Fault} (met : f.kind.origin ≠ .elsewhere) (lasting : f.isTransient = false)
      (c : Complaint) (family : c.kind = .store)
      (wording : c = ⟨.operationFailed f.text, some operation, key⟩) :
      Verdict operation key n table (.error (.fault f)) (.error (.complaint c)) table
  | exhausted {f : Fault} (transient : f.isTransient = true) (c : Complaint)
      (family : c.kind = .unavailable)
      (wording : c = ⟨.unavailable "Store unavailable" n, some operation, key⟩) :
      Verdict operation key n table (.error (.fault f)) (.error (.complaint c)) table

/-! ## Benches -/

/-- A table, and what was asked for around it. -/
structure Bench (τ : Type) where
  table : Table τ
  attempts : Nat := 0
  /-- In the order in which they were made. -/
  pauses : List τ := []

namespace Bench

variable [Instant τ] (fate : Nat → Option Failure)

/-- The outcome of an attempt by its number, counted from one. -/
def outcome (a : Transaction τ) (t : Table τ) (i : Nat) : Except Failure (a.Reply × Table τ) :=
  match fate i with
  | some f => .error f
  | none => a.commit t

def attempted (a : Transaction τ) (b : Bench τ) : Except Failure a.Reply × Bench τ :=
  match outcome fate a b.table (b.attempts + 1) with
  | .ok (r, t) => (.ok r, { b with table := t, attempts := b.attempts + 1 })
  | .error f => (.error f, { b with attempts := b.attempts + 1 })

/-- Carries out what is asked for. -/
def handle : (e : Effect τ) → Bench τ → e.Reply × Bench τ
  | .attempt a, b => b.attempted fate a
  | .pause d, b => ((), { b with pauses := b.pauses ++ [d] })
  | e, b => ((e.answer (Instant.ofSeconds 0) b.table).1, b)

variable {fate} {b : Bench τ} {t : Transaction τ}

theorem attempted_ok {r : t.Reply} {table : Table τ}
    (h : outcome fate t b.table (b.attempts + 1) = .ok (r, table)) :
    b.attempted fate t = (.ok r, { b with table, attempts := b.attempts + 1 }) := by
  unfold Bench.attempted
  rw [h]

theorem attempted_error {f : Failure}
    (h : outcome fate t b.table (b.attempts + 1) = .error f) :
    b.attempted fate t = (.error f, { b with attempts := b.attempts + 1 }) := by
  unfold Bench.attempted
  rw [h]

end Bench

/-! ## One attempt -/

namespace Operation

/-- A fault of the storage or of the operating system is met. -/
theorem settle_met {f : Fault} (h : f.kind.origin ≠ .elsewhere) (meet : Fault → Operation τ α) :
    settle meet (.error (.fault f)) = meet f := by
  show (if (f.kind.origin == .elsewhere) = true then _ else _) = _
  rw [if_neg (by simpa using h)]

theorem settle_foreign {f : Failure} (h : f.isForeign = true) (meet : Fault → Operation τ α) :
    settle meet (.error f) = throw f := by
  cases f with
  | complaint c => cases h
  | fault f => exact if_pos h
  | _ => rfl

variable [Instant τ] [Delay τ] {p : RetryPolicy τ} {operation : String} {key : Option Key}
  {t : Transaction τ} {fate : Nat → Option Failure} {b : Bench τ} {left : Nat}

/-- How a fault of an attempt is met, with so many attempts to come. -/
def met (p : RetryPolicy τ) (operation : String) (key : Option Key) (t : Transaction τ)
    (attempt : Nat) : Nat → Fault → Operation τ t.Reply
  | 0, f => throw (lastComplaint operation key attempt f)
  | left + 1, f => do
    if p.shouldRetry f attempt then
      waitFor p operation key attempt f
      transactFrom p operation key t (attempt + 1) left
    else throw (lastComplaint operation key attempt f)

theorem transactFrom_eq (p : RetryPolicy τ) (operation : String) (key : Option Key)
    (t : Transaction τ) (attempt left : Nat) : transactFrom p operation key t attempt left =
      perform (.attempt t) >>= settle (met p operation key t attempt left) := by
  cases left <;> rfl

theorem run_transactFrom (attempt left : Nat) :
    (ExceptT.run (transactFrom p operation key t attempt left)).run (Bench.handle fate) b =
      (ExceptT.run (settle (met p operation key t attempt left) (b.attempted fate t).1)).run
        (Bench.handle fate) (b.attempted fate t).2 := by
  rw [transactFrom_eq]
  rfl

/-- A fault that lasts, or that is met after the last attempt, is complained of. -/
theorem met_last {f : Fault} {attempt : Nat} (h : f.isTransient = true → left = 0) :
    met p operation key t attempt left f = throw (lastComplaint operation key attempt f) := by
  cases left with
  | zero => rfl
  | succ left =>
    have hlasting : f.isTransient = false := eq_false_of_ne_true fun hf => nomatch h hf
    show (if p.shouldRetry f attempt then _ else _) = _
    rw [if_neg (by simp [RetryPolicy.shouldRetry, hlasting])]

/-- A fault that passes is met by a pause, and by another attempt. -/
theorem met_again {f : Fault} {attempt : Nat} {delay : τ}
    (hretry : p.shouldRetry f attempt = true) (known : p.delay ((attempt : Int) - 1) = .ok delay) :
    met p operation key t attempt (left + 1) f = (do
      log (retryEntry p operation key attempt delay f)
      perform (.pause delay)
      transactFrom p operation key t (attempt + 1) left) := by
  show (if p.shouldRetry f attempt then _ else _) = _
  rw [if_pos hretry]
  unfold waitFor
  rw [known]
  rfl

variable (p operation key left)

theorem run_transactFrom_last
    (last : Passing (Bench.outcome fate t b.table (b.attempts + 1)) → left = 0) :
    ∃ r table, Verdict operation key (b.attempts + 1) b.table
        (Bench.outcome fate t b.table (b.attempts + 1)) r table ∧
      (ExceptT.run (transactFrom p operation key t (b.attempts + 1) left)).run
        (Bench.handle fate) b = (r, ⟨table, b.attempts + 1, b.pauses⟩) := by
  rw [run_transactFrom]
  cases houtcome : Bench.outcome fate t b.table (b.attempts + 1) with
  | ok done =>
    obtain ⟨r, table⟩ := done
    rw [Bench.attempted_ok houtcome]
    exact ⟨_, _, .succeeded r table, rfl⟩
  | error f =>
    rw [Bench.attempted_error houtcome]
    rw [houtcome] at last
    by_cases hforeign : f.isForeign = true
    · rw [settle_foreign hforeign]
      exact ⟨_, _, .foreign hforeign, rfl⟩
    · cases f with
      | complaint c => exact ⟨_, _, .complained c, rfl⟩
      | fault f =>
        have hmet : f.kind.origin ≠ .elsewhere := by simpa [Failure.isForeign] using hforeign
        rw [settle_met hmet, met_last last]
        unfold lastComplaint
        cases htransient : f.isTransient with
        | true => exact ⟨_, _, .exhausted htransient _ rfl rfl, rfl⟩
        | false => exact ⟨_, _, .refused hmet htransient _ rfl rfl, rfl⟩
      | _ => exact absurd rfl hforeign

/-- A fault that passes is met by a pause and another attempt, if there is one to come. -/
theorem run_transactFrom_again {delay : τ}
    (passing : Passing (Bench.outcome fate t b.table (b.attempts + 1)))
    (known : p.delay b.attempts = .ok delay)
    (more : ((b.attempts + 1 : Nat) : Int) < p.maxAttempts) :
    (ExceptT.run (transactFrom p operation key t (b.attempts + 1) (left + 1))).run
        (Bench.handle fate) b =
      (ExceptT.run (transactFrom p operation key t (b.attempts + 1 + 1) left)).run
        (Bench.handle fate)
        { b with attempts := b.attempts + 1, pauses := b.pauses ++ [delay] } := by
  rw [run_transactFrom]
  cases houtcome : Bench.outcome fate t b.table (b.attempts + 1) with
  | ok done =>
    rw [houtcome] at passing
    cases passing
  | error f =>
    rw [Bench.attempted_error houtcome]
    rw [houtcome] at passing
    cases f with
    | fault f =>
      have hmet : f.kind.origin ≠ .elsewhere := fun h =>
        Bool.noConfusion ((Fault.isTransient_of_elsewhere h).symm.trans passing)
      have hretry : p.shouldRetry f ((b.attempts + 1 : Nat) : Int) = true := by
        simp only [RetryPolicy.shouldRetry, decide_eq_true more, Bool.true_and]
        exact passing
      have hindex : p.delay (((b.attempts + 1 : Nat) : Int) - 1) = .ok delay := by
        rw [← known]
        congr 1
        omega
      rw [settle_met hmet, met_again hretry hindex]
      rfl
    | _ => cases passing

/-- From an attempt on, attempts are made until one is decided or they run out.  The induction is on
the attempts that are left. -/
theorem run_transactFrom_settles {pause : Nat → τ}
    (known : ∀ i : Nat, p.delay i = .ok (pause i))
    (enough : ((b.attempts + 1 + left : Nat) : Int) = p.maxAttempts) :
    ∃ k ≤ left,
      (∀ i < k, Passing (Bench.outcome fate t b.table (b.attempts + 1 + i))) ∧
      (Passing (Bench.outcome fate t b.table (b.attempts + 1 + k)) → k = left) ∧
      ∃ r table, Verdict operation key (b.attempts + 1 + k) b.table
          (Bench.outcome fate t b.table (b.attempts + 1 + k)) r table ∧
        (ExceptT.run (transactFrom p operation key t (b.attempts + 1) left)).run
          (Bench.handle fate) b =
            (r, ⟨table, b.attempts + 1 + k, b.pauses ++ (List.range' b.attempts k).map pause⟩) := by
  induction left generalizing b with
  | zero =>
    obtain ⟨r, table, hverdict, hrun⟩ :=
      run_transactFrom_last (t := t) (b := b) p operation key 0 fun _ => rfl
    exact ⟨0, le_rfl, nofun, fun _ => rfl, r, table, hverdict, by simpa using hrun⟩
  | succ left ih =>
    by_cases passing : Passing (Bench.outcome fate t b.table (b.attempts + 1))
    · have hagain := run_transactFrom_again p operation key left passing (known b.attempts)
        (by omega)
      obtain ⟨k, hk, hbefore, hlast, r, table, hverdict, hrun⟩ :=
        ih (b := { b with attempts := b.attempts + 1, pauses := b.pauses ++ [pause b.attempts] })
          (by dsimp only; omega)
      have hnext (i : Nat) : b.attempts + 1 + (i + 1) = b.attempts + 1 + 1 + i := by omega
      refine ⟨k + 1, by omega, fun i hi => ?_, fun h => ?_, r, table, ?_, ?_⟩
      · cases i with
        | zero => exact passing
        | succ i =>
          rw [hnext]
          exact hbefore i (by omega)
      · rw [hnext] at h
        rw [hlast h]
      · rw [hnext]
        exact hverdict
      · rw [hagain]
        refine hrun.trans ?_
        rw [hnext k, List.range'_succ, List.map_cons, List.append_assoc]
        rfl
    · obtain ⟨r, table, hverdict, hrun⟩ :=
        run_transactFrom_last p operation key (left + 1) fun h => absurd h passing
      exact ⟨0, Nat.zero_le _, nofun, fun h => absurd h passing, r, table, hverdict,
        by simpa using hrun⟩

end Operation

/-- A transaction is tried until an attempt is decided, or until there were as many as settings
allow: this is the n-th attempt.  There is a pause between each two attempts, none shorter than the
one before and none longer than the limit, and what the last attempt did is all that is done. -/
theorem Operation.retries_exactly_once {files files' : Files} {sources : Settings.Sources}
    {s : Settings} (accepted : Settings.load files sources = (.ok s, files')) (c : Config ℚ)
    (operation : String) (t : Transaction ℚ) (key : Option Key) (fate : Nat → Option Failure)
    (table : Table ℚ) :
    ∃ p : RetryPolicy ℚ, s.Reads p ∧ ∃ n : Nat, 1 ≤ n ∧ (n : Int) ≤ s.retryMaxAttempts ∧
      (∀ i, 1 ≤ i → i < n → Passing (Bench.outcome fate t table i)) ∧
      (Passing (Bench.outcome fate t table n) → (n : Int) = s.retryMaxAttempts) ∧
      ∃ r b,
        (ExceptT.run (Operation.transact { c with retry := p } operation t key)).run
          (Bench.handle fate) { table } = (r, b) ∧
        b.attempts = n ∧
        b.pauses.map Except.ok = (List.range (n - 1)).map (fun i : Nat => p.delay i) ∧
        b.pauses.Pairwise (· ≤ ·) ∧ (∀ d ∈ b.pauses, 0 ≤ d ∧ d ≤ p.maxDelay) ∧
        Verdict operation key n table (Bench.outcome fate t table n) r b.table := by
  obtain ⟨p, reads, grows, hleast, -⟩ := Settings.policy_of_load accepted
  have hmax := reads.attempts
  obtain ⟨k, hk, hbefore, hlast, r, table', hverdict, hrun⟩ :=
    Operation.run_transactFrom_settles (t := t) (b := { table }) p operation key
      (p.maxAttempts - 1).toNat p.delay_eq (by dsimp only; omega)
  rw [Nat.zero_add] at hrun hverdict hlast
  rw [← List.range_eq_range'] at hrun
  refine ⟨p, reads, 1 + k, by omega, by omega, fun i hi hik => ?_, fun h => ?_, r, _, hrun, rfl,
    ?_, ?_, ?_, hverdict⟩
  · have hi' := hbefore (i - 1) (by omega)
    rwa [show 0 + 1 + (i - 1) = i by omega] at hi'
  · have := hlast h
    omega
  · rw [Nat.add_sub_cancel_left, List.nil_append, List.map_map]
    exact List.map_congr_left fun i _ => (p.delay_eq i).symm
  · rw [List.nil_append, List.pairwise_map]
    exact (List.pairwise_lt_range).imp fun hij => grows.pauseAfter_mono hij.le
  · intro d hd
    obtain ⟨i, -, rfl⟩ := List.mem_map.1 hd
    exact ⟨grows.pauseAfter_nonneg i, p.pauseAfter_le i⟩

/-- The connection is lost twice before all entries are removed, and four attempts are allowed. -/
theorem Operation.retries_exactly_once_reconnected :
    ∃ r b p, ({ databaseUrl := "", retryMaxAttempts := 4 } : Settings).Reads p ∧
      (ExceptT.run
          (transact (τ := ℚ) ⟨false, true, false, none, 5, p, true⟩ "clear" .removeEvery)).run
        (Bench.handle fun i =>
          if i < 3 then some (.fault ⟨.connectionReset, "gone", false⟩) else none)
        { table := Table.empty.insert "k" ⟨.numeral (.int 1), 0, none, "", none⟩ } = (r, b) ∧
      b.attempts = 3 ∧ b.pauses.length = 2 ∧ b.table.rows = [] := by
  have accepted : Settings.load {}
      { arguments := [("database_url", .str ""), ("retry_max_attempts", .int 4)] } =
        (.ok { databaseUrl := "", retryMaxAttempts := 4 }, {}) := rfl
  obtain ⟨p, reads, n, hleast, -, hbefore, hlast, r, b, hrun, hattempts, hpauses, -, -, hverdict⟩ :=
    retries_exactly_once accepted ⟨false, true, false, none, 5, ⟨0, 0, 0, 0⟩, true⟩ "clear"
      .removeEvery none
      (fun i => if i < 3 then some (.fault ⟨.connectionReset, "gone", false⟩) else none)
      (Table.empty.insert "k" ⟨.numeral (.int 1), 0, none, "", none⟩)
  have hle : n ≤ 3 := not_lt.1 fun h => hbefore 3 (by decide) h
  have hn : n = 3 := by
    by_contra hne
    have hlost : n = 1 ∨ n = 2 := by omega
    have hmost : (n : Int) = 4 := by
      refine hlast ?_
      rcases hlost with rfl | rfl <;> rfl
    omega
  subst hn
  refine ⟨r, b, p, reads, hrun, hattempts, ?_, ?_⟩
  · have hlength := congrArg List.length hpauses
    rwa [List.length_map] at hlength
  · generalize b.table = left at hverdict ⊢
    cases hverdict
    rfl

end ExpiringStore
