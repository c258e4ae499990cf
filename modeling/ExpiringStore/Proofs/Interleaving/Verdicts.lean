import ExpiringStore.Proofs.Interleaving.Probes

/-!
# What checks of the entries answer

A check that nothing fails ends with an answer: it found an entry, or another check had removed the
one that it wrote, and none had written it since.  A check that has ended has removed the entry
after its last write, so no entry is left once all have ended.

    record   =   … write … between … lookup …        of a check that has ended
    its answer is no   ↔   Disturbed between
-/

namespace ExpiringStore

/-- What a check has answered, if it has. -/
def Probe.verdict? {τ : Type} (p : Probe τ) : Option Bool :=
  match p.rest with
  | .done (.ok verdict) => some verdict
  | _ => none

theorem Probe.rest_of_verdict? {τ : Type} {p : Probe τ} {verdict : Bool}
    (h : p.verdict? = some verdict) : p.rest = .done (.ok verdict) := by
  unfold verdict? at h
  split at h
  · next hrest => rwa [Option.some.inj h] at hrest
  · cases h

def Effect.succeeds {τ : Type} : (e : Effect τ) → e.Reply → Bool
  | .attempt _, .error _ => false
  | _, _ => true

theorem Effect.meets_answer {τ : Type} [Instant τ] {clock : τ} {t : Table τ} {e : Effect τ}
    (h : e.succeeds (e.answer clock t).1 = true) :
    e.Meets clock t (e.answer clock t).1 (e.answer clock t).2 := by
  cases e with
  | readClock => exact ⟨rfl, rfl⟩
  | attempt a =>
    cases hc : a.commit t with
    | ok p =>
      rw [Effect.answer_ok hc]
      exact ⟨p.1, rfl, hc⟩
    | error f =>
      rw [Effect.answer_error hc] at h
      cases h
  | engine step => cases step <;> exact ⟨rfl, rfl⟩
  | _ => exact rfl

namespace Probing

variable {τ : Type} [MonotoneInstant τ] [Delay τ] {t : Table τ} {clock : τ} {s s' : Probing τ}

/-! ## Answers -/

section
omit [Delay τ]

/-- A lookup that meets only live entries of the checks finds one, or finds nothing. -/
theorem looked_entry {looked : List (Deed τ)} {r : Except Failure Answer}
    (h : Call.LookedUp (.plain Operation.probeKey) false none looked r)
    (entry : ∀ row, .committed (.fetch Operation.probeKey) (some row) ∈ looked →
      ∃ n, clock ≤ n ∧ row = probeRow n)
    (brief : ∀ now, .read now ∈ looked → now ≤ Instant.plus clock (Instant.ofSeconds 10)) :
    ∃ found rest, looked = .committed (.fetch Operation.probeKey) found :: rest ∧
      r = .ok (.lookup (if found.isSome then .hit (.str "ok") else .miss)) := by
  cases h with
  | missing => exact ⟨none, [], rfl, rfl⟩
  | expired row now removed dead =>
    obtain ⟨n, hn, rfl⟩ := entry row List.mem_cons_self
    rw [isExpired_probeRow hn (brief now (by simp))] at dead
    cases dead
  | live row now live =>
    obtain ⟨n, -, rfl⟩ := entry row List.mem_cons_self
    exact ⟨some (probeRow n), [.read now], rfl, rfl⟩

/-- A check that has ended has written, looked up and removed the entry, in this order. -/
theorem Sound.ended (h : Sound t clock s)
    (brief : s.clock ≤ Instant.plus clock (Instant.ofSeconds 10)) {i : Nat}
    {p : Probe τ} {r : Except Failure Bool} (atI : s.probes[i]? = some p)
    (ended : p.rest = .done r) :
    ∃ n found rest removed, (s.pastOf i).deeds = [.read n] ++ .committed (probeWrite n) () ::
        ([] ++ .committed (.fetch Operation.probeKey) found ::
          (rest ++ [.committed (.remove Operation.probeKey) removed])) ∧
      r = .ok found.isSome := by
  have hfollows := h.follows i p atI
  rw [ended] at hfollows
  have hprobed : Operation.Probed (s.pastOf i).deeds r := hfollows rfl
  have hentry (row : Row τ) (mem : .committed (.fetch Operation.probeKey) (some row) ∈
      (s.pastOf i).deeds) : ∃ n, clock ≤ n ∧ row = probeRow n := h.found_entry (mem_pastOf.1 mem)
  have hbrief (now : τ) (mem : .read now ∈ (s.pastOf i).deeds) :
      now ≤ Instant.plus clock (Instant.ofSeconds 10) :=
    (h.readings i now (mem_pastOf.1 mem)).2.trans brief
  generalize (s.pastOf i).deeds = deeds at hprobed hentry hbrief
  cases hprobed with
  | answered n removed lookup =>
    obtain ⟨found, rest, rfl, hr⟩ := looked_entry lookup (fun row mem => hentry row (by simp [mem]))
      fun now mem => hbrief now (by simp [mem])
    refine ⟨n, found, rest, removed, rfl, ?_⟩
    obtain rfl := Answer.lookup.inj (Except.ok.inj hr)
    cases found with
    | none => simp [Lookup.getD, Value.same, Value.magnitude?, Value.text?]
    | some row => simp [Lookup.getD, Value.same, Value.magnitude?, Value.text?]
  | undecodable n r lookup =>
    obtain ⟨found, rest, rfl, hr⟩ := looked_entry lookup (fun row mem => hentry row (by simp [mem]))
      fun now mem => hbrief now (by simp [mem])
    cases hr

/-- A check that has ended says whether the entry was left undisturbed between its write and its
lookup. -/
theorem Sound.answered (h : Sound t clock s)
    (brief : s.clock ≤ Instant.plus clock (Instant.ofSeconds 10))
    {i : Nat} {p : Probe τ} {r : Except Failure Bool} (atI : s.probes[i]? = some p)
    (ended : p.rest = .done r) :
    ∃ verdict before n between found after, r = .ok verdict ∧
      s.record = before ++ (i, .committed (probeWrite n) ()) :: between ++
        (i, .committed (.fetch Operation.probeKey) found) :: after ∧
      (verdict = false ↔ Disturbed (between.map (·.2))) := by
  obtain ⟨n, found, rest, removed, hdeeds, hr⟩ := h.ended brief atI ended
  obtain ⟨before, later, hrecord, -, hlater⟩ := exists_split hdeeds
  obtain ⟨between, after, rfl, -, -⟩ := exists_split hlater
  have hsplit : s.record = (before ++ (i, .committed (probeWrite n) ()) :: between) ++
      (i, .committed (.fetch Operation.probeKey) found) :: after := by
    rw [hrecord, List.append_assoc, List.cons_append]
  refine ⟨found.isSome, before, n, between, found, after, hr, hsplit, ?_⟩
  have hprobing : ∀ x ∈ before ++ (i, .committed (probeWrite n) ()) :: between,
      x.2.IsProbing clock := fun x mem => h.probing x (hsplit ▸ List.mem_append_left _ mem)
  obtain ⟨hfound, -⟩ := h.fetched _ i found after hsplit
  rcases rowAfter_split hprobing _ hfound with ⟨rfl, hdisturbed⟩ | ⟨m, -, rfl, hdisturbed⟩
  · exact iff_of_true rfl hdisturbed
  · exact iff_of_false (by simp) hdisturbed

/-- When all checks have ended, no entry is left. -/
theorem Sound.cleared (h : Sound t clock s)
    (brief : s.clock ≤ Instant.plus clock (Instant.ofSeconds 10))
    (ended : ∀ p ∈ s.probes, ∃ r, p.rest = .done r) (checked : s.probes ≠ []) :
    s.table.find? Operation.probeKey = none := by
  have hended (i : Nat) (hi : i < s.probes.length) : ∃ n rest removed, (s.pastOf i).deeds =
      .read n :: .committed (probeWrite n) () ::
        (rest ++ [.committed (.remove Operation.probeKey) removed]) := by
    have atI := List.getElem?_eq_getElem hi
    obtain ⟨r, hr⟩ := ended _ (List.mem_of_getElem? atI)
    obtain ⟨n, found, rest, removed, hdeeds, -⟩ := h.ended brief atI hr
    exact ⟨n, .committed (.fetch Operation.probeKey) found :: rest, removed, hdeeds⟩
  -- The last write of all, by whichever check.
  have hwritten : ∃ x ∈ s.record, x.2.isWrite = true := by
    obtain ⟨n, rest, removed, hdeeds⟩ := hended 0 (List.length_pos_iff.2 checked)
    exact ⟨(0, .committed (probeWrite n) ()), mem_pastOf.1 (hdeeds ▸ by simp), rfl⟩
  obtain ⟨before, ⟨j, d⟩, after, hrecord, hd, hafter⟩ := exists_last hwritten
  have hmem : (j, d) ∈ s.record := hrecord ▸ List.mem_append_right _ List.mem_cons_self
  obtain ⟨n, rfl⟩ : ∃ n, d = .committed (probeWrite n) () := by
    cases h.probing (j, d) hmem with
    | wrote n => exact ⟨n, rfl⟩
    | _ => cases hd
  -- The check that made it has removed the entry since: that is the last thing a check does.
  have hremoved : ∃ removed, (j, .committed (.remove Operation.probeKey) removed) ∈ after := by
    obtain ⟨m, rest, removed, hdeeds⟩ := hended j (h.known (j, _) hmem)
    refine ⟨removed, ?_⟩
    rw [pastOf, hrecord, ← List.cons_append, ← List.cons_append] at hdeeds
    refine mem_after_of_last hdeeds ?_
    intro heq
    cases heq
  have hdisturbed : Disturbed (after.map (·.2)) := by
    obtain ⟨removed, hmem⟩ := hremoved
    obtain ⟨earlier, later, rfl⟩ := List.append_of_mem hmem
    refine ⟨earlier.map (·.2), .committed (.remove Operation.probeKey) removed, later.map (·.2),
      by simp, rfl, fun d mem => ?_⟩
    obtain ⟨x, hx, rfl⟩ := List.mem_map.1 mem
    exact hafter x (List.mem_append_right _ (List.mem_cons_of_mem _ hx))
  rcases rowAfter_split (hrecord ▸ h.probing) _ (hrecord ▸ h.row) with ⟨hnone, -⟩ | ⟨m, -, -, hnot⟩
  · exact hnone
  · exact absurd hdisturbed hnot

/-! ## Going on -/

theorem isStorable_probeRow (now : τ) : (probeRow now).isStorable = true := by
  have hfits : Instant.fits (Instant.ofSeconds 10 : τ) = true := OrderedInstant.fits_ofSeconds rfl
  show (Option.all Instant.fits (some (Instant.ofSeconds 10 : τ)) && true) = true
  rw [Option.all_some, hfits]
  rfl

theorem Sound.commits (h : Sound t clock s) {i : Nat} {a : Transaction τ}
    (permitted : Operation.Probes (s.pastOf i).deeds a) :
    ∃ reply t', a.commit s.table = .ok (reply, t') := by
  cases permitted with
  | @write now read =>
    have hstorable := isStorable_probeRow now
    exact Transaction.commit_write (by simpa using hstorable)
  | @lookUp n wrote =>
    refine Transaction.commit_fetch fun row found => ?_
    obtain ⟨first, between, hrecord⟩ := List.append_of_mem (mem_pastOf.1 wrote)
    rcases rowAfter_split (hrecord ▸ h.probing) _ (hrecord ▸ h.row) with
      ⟨hnone, -⟩ | ⟨m, -, hrow, -⟩
    · cases found.symm.trans hnone
    · obtain rfl := Option.some.inj (found.symm.trans hrow)
      rfl
  | expire | remove => exact Transaction.commit_changing rfl

theorem Sound.goes_on (h : Sound t clock s) {i : Nat} {p : Probe τ} {e : Effect τ}
    {next : e.Reply → Program τ (Except Failure Bool)} (atI : s.probes[i]? = some p)
    (asks : p.rest = .ask e next) : ∃ s', Goes i s s' := by
  have hfollows := h.follows i p atI
  rw [asks] at hfollows
  have hmet : ∃ r t', e.Meets s.clock s.table r t' := by
    cases e with
    | readClock => exact ⟨.ok s.clock, s.table, rfl, rfl⟩
    | attempt a =>
      obtain ⟨reply, t', done⟩ := h.commits hfollows.1
      exact ⟨.ok reply, t', reply, rfl, done⟩
    | engine step =>
      cases step with
      | start | hasTable | makeTable => exact ⟨.ok true, s.table, rfl, rfl⟩
      | isOpen => exact ⟨true, s.table, rfl, rfl⟩
      | dialect => exact ⟨some "sqlite", s.table, rfl, rfl⟩
      | dispose | release => exact ⟨(), s.table, rfl, rfl⟩
    | recallSize => exact ⟨{}, s.table, rfl⟩
    | listeners => exact ⟨[], s.table, rfl⟩
    | notify => exact ⟨none, s.table, rfl⟩
    | gate => exact ⟨true, s.table, rfl⟩
    | pause | log | bookkeep | sweeper | noteRunning => exact ⟨(), s.table, rfl⟩
  obtain ⟨r, t', met⟩ := hmet
  exact ⟨_, .answer s p e next r t' atI asks met⟩

end

/-- Whatever the order of the steps, a check that nothing fails goes on until it has ended with an
answer, and the answer is no exactly if the entry was disturbed between its write and its lookup.
When all checks have ended no entry is left, and other rows are as others have made them. -/
theorem check_fails_iff_disturbed (h : Reachable t clock s)
    (brief : s.clock ≤ Instant.plus clock (Instant.ofSeconds 10)) :
    (∀ i p, s.probes[i]? = some p → (∃ s', Goes i s s') ∨
      ∃ verdict before n between found after, p.rest = .done (.ok verdict) ∧
        s.record = before ++ (i, .committed (probeWrite n) ()) :: between ++
          (i, .committed (.fetch Operation.probeKey) found) :: after ∧
        (verdict = false ↔ Disturbed (between.map (·.2)))) ∧
    ((∀ p ∈ s.probes, ∃ r, p.rest = .done r) →
      s.probes ≠ [] ∨ t.find? Operation.probeKey = none →
      s.table.find? Operation.probeKey = none) ∧
    ∀ key, key ≠ Operation.probeKey → s.table.find? key =
      s.others.foldl (fun row a => a.onRow key row) (t.find? key) := by
  have hsound := h.sound brief
  refine ⟨fun i p atI => ?_, fun ended begun => ?_, hsound.rest⟩
  · cases hrest : p.rest with
    | ask e next => exact .inl (hsound.goes_on atI hrest)
    | done r =>
      obtain ⟨verdict, before, n, between, found, after, rfl, hanswered⟩ :=
        hsound.answered brief atI hrest
      exact .inr ⟨verdict, before, n, between, found, after, rfl, hanswered⟩
  · by_cases checked : s.probes = []
    · -- Nobody has done anything.
      have hrecord : s.record = [] := List.eq_nil_iff_forall_not_mem.2 fun x mem => by
        have hlt := hsound.known x mem
        rw [checked] at hlt
        exact absurd hlt (Nat.not_lt_zero _)
      have hnone := begun.resolve_left (not_not_intro checked)
      rw [hsound.row, hrecord, hnone]
      rfl
    · exact hsound.cleared brief ended checked

/-! ## Checks that are played -/

/-- A check goes on by one effect, if nothing fails. -/
def act (i : Nat) (s : Probing τ) : Probing τ :=
  match s.probes[i]? with
  | none => s
  | some p =>
    match p.rest with
    | .done _ => s
    | .ask e next =>
      let (r, t) := e.answer s.clock s.table
      if e.succeeds r then { s with
        table := t
        probes := s.probes.set i { p with rest := next r }
        record := s.record ++ (e.deed? r).toList.map (i, ·) }
      else s

/-- A check goes on by so many effects, if it has so many. -/
def acts (i : Nat) : Nat → Probing τ → Probing τ
  | 0, s => s
  | n + 1, s => acts i n (act i s)

/-- Plays checks in turn: who goes on, and by how many effects. -/
def play : List (Nat × Nat) → Probing τ → Probing τ
  | [], s => s
  | (i, n) :: rest, s => play rest (acts i n s)

def begin (c : Config τ) : Nat → Probing τ → Probing τ
  | 0, s => s
  | n + 1, s => begin c n { s with
      probes := s.probes ++ [⟨c, ExceptT.run (Operation.checkCache c)⟩] }

theorem act_steps (i : Nat) (s : Probing τ) : Steps s (act i s) := by
  unfold act
  split
  · exact .refl
  · next p atI =>
    split
    · exact .refl
    · next e next asks =>
      dsimp only
      split
      · next succeeds =>
        exact .single (.go _ _ i (.answer s p e next _ _ atI asks (Effect.meets_answer succeeds)))
      · exact .refl

theorem acts_steps (i n : Nat) (s : Probing τ) : Steps s (acts i n s) := by
  induction n generalizing s with
  | zero => exact .refl
  | succ n ih => exact (act_steps i s).trans (ih (act i s))

theorem play_steps (turns : List (Nat × Nat)) (s : Probing τ) : Steps s (play turns s) := by
  induction turns generalizing s with
  | nil => exact .refl
  | cons turn rest ih => exact (acts_steps turn.1 turn.2 s).trans (ih _)

theorem begin_steps (c : Config τ) (n : Nat) (s : Probing τ) : Steps s (begin c n s) := by
  induction n generalizing s with
  | zero => exact .refl
  | succ n ih => exact .head (.check s c) (ih _)

/-- What is played is reached. -/
theorem play_reachable (c : Config τ) (n : Nat) (turns : List (Nat × Nat)) (t : Table τ)
    (clock : τ) : Reachable t clock (play turns (begin c n (start t clock))) :=
  (begin_steps c n _).trans (play_steps turns _)

omit [Delay τ] in
theorem not_goes {i : Nat} {p : Probe τ} {r : Except Failure Bool} (atI : s.probes[i]? = some p)
    (ended : p.rest = .done r) : ¬ Goes i s s' := by
  intro hgoes
  cases hgoes with
  | answer q e next r t atI' asks met =>
    obtain rfl := Option.some.inj (atI.symm.trans atI')
    cases ended.symm.trans asks

/-- Two checks write, look up and remove the entry in step, in a table with another row. -/
def inStep : Probing Int :=
  play [(0, 5), (1, 5), (0, 5), (1, 5), (0, 20), (1, 20)]
    (begin .plain 2 (start (Table.empty.insert "k" (probeRow 0)) 0))

theorem check_fails_iff_disturbed_inStep :
    (∃ before n between found after,
      inStep.record = before ++ (1, .committed (probeWrite n) ()) :: between ++
        (1, .committed (.fetch Operation.probeKey) found) :: after ∧
      ¬ Disturbed (between.map (·.2))) ∧
    inStep.table.find? Operation.probeKey = none ∧
    inStep.table.find? "k" = some (probeRow 0) := by
  have hreach : Reachable (Table.empty.insert "k" (probeRow 0)) 0 inStep :=
    play_reachable .plain 2 _ _ 0
  obtain ⟨hchecks, hcleared, hrest⟩ := check_fails_iff_disturbed hreach (by decide +kernel)
  have hended : inStep.probes.all (·.verdict?.isSome) = true := by decide +kernel
  have hsecond : inStep.probes[1]?.bind Probe.verdict? = some true := by decide +kernel
  have hothers : inStep.others.length = 0 := by decide +kernel
  obtain ⟨q, hq, hanswer⟩ := Option.bind_eq_some_iff.1 hsecond
  have hq' := Probe.rest_of_verdict? hanswer
  refine ⟨?_, hcleared (fun r mem => ?_) (.inl ?_), ?_⟩
  · rcases hchecks 1 q hq with
      ⟨s', hgoes⟩ | ⟨verdict, before, n, between, found, after, hverdict, hsplit, hiff⟩
    · exact absurd hgoes (not_goes hq hq')
    · refine ⟨before, n, between, found, after, hsplit, fun hdisturbed => ?_⟩
      rw [hiff.2 hdisturbed] at hverdict
      cases hq'.symm.trans hverdict
  · obtain ⟨verdict, hverdict⟩ := Option.isSome_iff_exists.1 (List.all_eq_true.1 hended r mem)
    exact ⟨_, Probe.rest_of_verdict? hverdict⟩
  · exact List.ne_nil_of_mem (List.mem_of_getElem? hq)
  · rw [hrest "k" (by decide), List.length_eq_zero_iff.1 hothers]
    exact Table.find?_insert_self ..

/-- One check looks its entry up and removes it before another, which has written it since, has
looked it up. -/
def overlapping : Probing Int :=
  play [(0, 5), (1, 5), (0, 30), (1, 30)] (begin .plain 2 (start .empty 0))

/-- A check fails though nothing else fails and no time passes. -/
theorem check_disturbed : ∃ s : Probing Int, Reachable .empty 0 s ∧ s.clock = 0 ∧ s.others = [] ∧
    ∃ p, s.probes[1]? = some p ∧ p.rest = .done (.ok false) := by
  have hanswer : overlapping.probes[1]?.bind Probe.verdict? = some false := by decide +kernel
  have hothers : overlapping.others.length = 0 := by decide +kernel
  obtain ⟨p, hp, hverdict⟩ := Option.bind_eq_some_iff.1 hanswer
  exact ⟨overlapping, play_reachable .plain 2 _ _ 0, by decide +kernel,
    List.length_eq_zero_iff.1 hothers, p, hp, Probe.rest_of_verdict? hverdict⟩

end Probing

end ExpiringStore
