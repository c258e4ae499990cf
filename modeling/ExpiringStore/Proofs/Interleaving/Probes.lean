import ExpiringStore.Proofs.Call.Probe
import ExpiringStore.Proofs.Interleaving.Play
import ExpiringStore.Proofs.Table.Reply
import ExpiringStore.Proofs.Table.Storable
import Mathlib.Data.List.Induction

/-!
# Checks of the entries that interleave

Any number of checks, of one store or of several, share a table, a clock that never goes back, and
the key of the entry that they write.  Nothing fails, and what others commit leaves the row of that
key as it is.  A check finds the entry that it wrote, or one that another check has written since,
unless the last that happened to the entry before its lookup was that another check removed it.

    Step s s'                one step
    Reachable t clock s      s is reached from the table t and the clock, before any check
    rowAfter key row deeds   what the deeds make of the row of a key
    Disturbed between        the entry was removed and not written since
-/

namespace ExpiringStore

variable {τ : Type}

/-- A check under way: what remains of its program. -/
structure Probe (τ : Type) where
  config : Config τ
  rest : Program τ (Except Failure Bool)

/-- A table and a clock with the checks that use them. -/
structure Probing (τ : Type) where
  clock : τ
  table : Table τ
  probes : List (Probe τ)
  /-- What the checks have done, in order, each with its number. -/
  record : List (Nat × Deed τ)
  /-- What others have committed, in order. -/
  others : List (Transaction τ)

/-- What an answer adds to what was done, if anything. -/
def Effect.deed? : (e : Effect τ) → e.Reply → Option (Deed τ)
  | .readClock, .ok now => some (.read now)
  | .attempt a, .ok r => some (.committed a r)
  | _, _ => none

/-- May an effect be answered so where nothing fails, and the table be left so? -/
def Effect.Meets [Instant τ] (clock : τ) (t : Table τ) : (e : Effect τ) → e.Reply → Table τ → Prop
  | .readClock, r, t' => r = .ok clock ∧ t' = t
  | .attempt a, r, t' => ∃ reply, r = .ok reply ∧ a.commit t = .ok (reply, t')
  | .engine step, r, t' => step.succeeded r = true ∧ t' = t
  | _, _, t' => t' = t

def Deed.onRow [Instant τ] (key : String) (row : Option (Row τ)) : Deed τ → Option (Row τ)
  | .read _ => row
  | .committed a _ => a.onRow key row

def rowAfter [Instant τ] (key : String) (row : Option (Row τ)) (deeds : List (Deed τ)) :
    Option (Row τ) := deeds.foldl (Deed.onRow key) row

def Deed.isRemoval : Deed τ → Bool
  | .committed (.remove _) _ => true
  | _ => false

def Deed.isWrite : Deed τ → Bool
  | .committed (.write _) _ => true
  | _ => false

/-- Has one removed the entry, and nobody written it since? -/
def Disturbed (between : List (Deed τ)) : Prop :=
  ∃ earlier removal later, between = earlier ++ removal :: later ∧ removal.isRemoval = true ∧
    ∀ d ∈ later, d.isWrite = false

namespace Effect.Meets

variable [Instant τ] {clock : τ} {t t' : Table τ} {e : Effect τ} {r : e.Reply}

/-- Where nothing fails, an answer adds its deed and spoils nothing. -/
theorem past_after (met : e.Meets clock t r t') (deeds : List (Deed τ)) :
    Past.after ⟨deeds, true⟩ e r = ⟨deeds ++ (e.deed? r).toList, true⟩ := by
  cases e with
  | readClock =>
    obtain ⟨rfl, -⟩ := met
    rfl
  | attempt a =>
    obtain ⟨reply, rfl, -⟩ := met
    rfl
  | engine step =>
    obtain ⟨hs, -⟩ := met
    show (if step.succeeded r then _ else _) = _
    rw [if_pos hs]
    exact congrArg (Past.mk · true) (List.append_nil deeds).symm
  | _ => exact congrArg (Past.mk · true) (List.append_nil deeds).symm

/-- An answer is of no account, tells the clock, or commits a transaction that was permitted. -/
theorem cases (met : e.Meets clock t r t') :
    (e.deed? r = none ∧ t' = t) ∨ (e.deed? r = some (.read clock) ∧ t' = t) ∨
      ∃ a reply, e.deed? r = some (.committed a reply) ∧ a.commit t = .ok (reply, t') ∧
        ∀ permits deeds, e.Permitted permits deeds → permits deeds a := by
  cases e with
  | readClock =>
    obtain ⟨rfl, ht⟩ := met
    exact .inr (.inl ⟨rfl, ht⟩)
  | attempt a =>
    obtain ⟨reply, rfl, done⟩ := met
    exact .inr (.inr ⟨a, reply, rfl, done, fun _ _ h => h⟩)
  | engine step => exact .inl ⟨rfl, met.2⟩
  | _ => exact .inl ⟨rfl, met⟩

end Effect.Meets

/-! ## The entry of the checks -/

theorem rowAfter_append [Instant τ] (key : String) (row : Option (Row τ)) (ds es : List (Deed τ)) :
    rowAfter key row (ds ++ es) = rowAfter key (rowAfter key row ds) es := List.foldl_append

/-- What is disturbed is disturbed by the last deed, or before it and not mended by it. -/
theorem disturbed_concat (ds : List (Deed τ)) (d : Deed τ) :
    Disturbed (ds ++ [d]) ↔ d.isRemoval = true ∨ Disturbed ds ∧ d.isWrite = false := by
  constructor
  · rintro ⟨earlier, removal, later, heq, hremoval, hlater⟩
    rcases List.eq_nil_or_concat later with rfl | ⟨init, last, rfl⟩
    · obtain ⟨-, hd⟩ := List.append_inj' heq rfl
      obtain rfl : d = removal := List.singleton_inj.1 hd
      exact .inl hremoval
    · rw [List.concat_eq_append] at heq hlater
      rw [← List.cons_append, ← List.append_assoc] at heq
      obtain ⟨hds, hd⟩ := List.append_inj' heq rfl
      obtain rfl : d = last := List.singleton_inj.1 hd
      refine .inr ⟨⟨earlier, removal, init, hds, hremoval, fun x mem => ?_⟩, ?_⟩
      · exact hlater x (List.mem_append_left _ mem)
      · exact hlater d (List.mem_append_right _ List.mem_cons_self)
  · rintro (hremoval | ⟨⟨earlier, removal, later, rfl, hremoval, hlater⟩, hd⟩)
    · exact ⟨ds, d, [], rfl, hremoval, fun x mem => absurd mem List.not_mem_nil⟩
    · refine ⟨earlier, removal, later ++ [d], List.append_assoc .., hremoval, fun x mem => ?_⟩
      rcases List.mem_append.1 mem with mem | mem
      · exact hlater x mem
      · obtain rfl := List.mem_singleton.1 mem
        exact hd

theorem not_disturbed_nil : ¬ Disturbed ([] : List (Deed τ)) := by
  rintro ⟨earlier, removal, later, heq, -⟩
  have hmem : removal ∈ ([] : List (Deed τ)) := heq ▸ List.mem_append_right _ List.mem_cons_self
  cases hmem

section
variable [MonotoneInstant τ] {clock : τ}

/-- What checks do that begin at an instant or later. -/
inductive Deed.IsProbing (clock : τ) : Deed τ → Prop
  | read (now : τ) : IsProbing clock (.read now)
  | wrote (now : τ) (later : clock ≤ now) : IsProbing clock (.committed (probeWrite now) ())
  | fetched (row : Option (Row τ)) :
      IsProbing clock (.committed (.fetch Operation.probeKey) row)
  | removed (b : Bool) : IsProbing clock (.committed (.remove Operation.probeKey) b)

/-- The entry lives longer than the clock advances. -/
theorem isExpired_probeRow {n now : τ} (later : clock ≤ n)
    (brief : now ≤ Instant.plus clock (Instant.ofSeconds 10)) :
    (probeRow n).isExpired now = false := by
  rw [Row.isExpired_eq_false_iff_of_ttl rfl]
  exact brief.trans (MonotoneInstant.plus_le_plus later _)

/-- Once written, the entry is there or disturbed.  The induction is on the deeds since, the last
one first. -/
theorem written_or_disturbed {n : τ} (later : clock ≤ n) (ds : List (Deed τ))
    (probing : ∀ d ∈ ds, d.IsProbing clock) :
    (rowAfter Operation.probeKey (some (probeRow n)) ds = none ∧ Disturbed ds) ∨
      (∃ m, clock ≤ m ∧ rowAfter Operation.probeKey (some (probeRow n)) ds = some (probeRow m) ∧
        ¬ Disturbed ds) := by
  induction ds using List.reverseRecOn with
  | nil => exact .inr ⟨n, later, rfl, not_disturbed_nil⟩
  | append_singleton ds d ih =>
    have hprobing : ∀ d ∈ ds, d.IsProbing clock := fun d mem =>
      probing d (List.mem_append_left _ mem)
    rw [rowAfter_append, disturbed_concat]
    cases probing d (List.mem_append_right _ List.mem_cons_self) with
    | read | fetched =>
      -- Nothing happens to the entry.
      rcases ih hprobing with ⟨hrow, hds⟩ | ⟨m, hm, hrow, hds⟩
      · exact .inl ⟨hrow, .inr ⟨hds, rfl⟩⟩
      · exact .inr ⟨m, hm, hrow, fun h => h.elim nofun fun h => hds h.1⟩
    | wrote m hm => exact .inr ⟨m, hm, rfl, fun h => h.elim nofun fun h => nomatch h.2⟩
    | removed b =>
      refine .inl ⟨?_, .inl rfl⟩
      show Option.filter (fun _ => Operation.probeKey != Operation.probeKey) _ = none
      simp

/-- After a write of the entry, what became of it is decided by what was done since. -/
theorem rowAfter_split {first between : List (Nat × Deed τ)} {i : Nat} {n : τ}
    (probing : ∀ x ∈ first ++ (i, .committed (probeWrite n) ()) :: between, x.2.IsProbing clock)
    (row : Option (Row τ)) {row' : Option (Row τ)} (after : row' = rowAfter Operation.probeKey row
      ((first ++ (i, .committed (probeWrite n) ()) :: between).map (·.2))) :
    (row' = none ∧ Disturbed (between.map (·.2))) ∨
      (∃ m, clock ≤ m ∧ row' = some (probeRow m) ∧ ¬ Disturbed (between.map (·.2))) := by
  have hwrote : row' = rowAfter Operation.probeKey (some (probeRow n)) (between.map (·.2)) := by
    rw [after, List.map_append, rowAfter_append]
    rfl
  have hlater : clock ≤ n := by
    cases probing (i, .committed (probeWrite n) ()) (by simp) with
    | wrote _ later => exact later
  rw [hwrote]
  refine written_or_disturbed hlater _ fun d mem => ?_
  obtain ⟨x, hx, rfl⟩ := List.mem_map.1 mem
  exact probing x (List.mem_append_right _ (List.mem_cons_of_mem _ hx))

end

namespace Probing

variable [MonotoneInstant τ] [Delay τ] {t : Table τ} {clock : τ} {s s' : Probing τ}

/-- Nobody has checked anything yet. -/
def start (t : Table τ) (clock : τ) : Probing τ := ⟨clock, t, [], [], []⟩

/-- What a check has done.  Nothing has failed. -/
def pastOf (s : Probing τ) (i : Nat) : Past τ :=
  ⟨(s.record.filter (·.1 == i)).map (·.2), true⟩

/-- One step of a check. -/
inductive Goes (i : Nat) : Probing τ → Probing τ → Prop
  | answer (s : Probing τ) (p : Probe τ) (e : Effect τ)
      (next : e.Reply → Program τ (Except Failure Bool)) (r : e.Reply) (t : Table τ)
      (atI : s.probes[i]? = some p) (asks : p.rest = .ask e next)
      (met : e.Meets s.clock s.table r t) :
      Goes i s { s with
        table := t
        probes := s.probes.set i { p with rest := next r }
        record := s.record ++ (e.deed? r).toList.map (i, ·) }

/-- One step of those who share the table. -/
inductive Step : Probing τ → Probing τ → Prop
  | tick (s : Probing τ) (now : τ) (later : s.clock ≤ now) : Step s { s with clock := now }
  | check (s : Probing τ) (c : Config τ) : Step s { s with
      probes := s.probes ++ [⟨c, ExceptT.run (Operation.checkCache c)⟩] }
  | go (s s' : Probing τ) (i : Nat) (goes : Goes i s s') : Step s s'
  | other (s : Probing τ) (a : Transaction τ) (r : a.Reply) (t : Table τ)
      (done : a.commit s.table = .ok (r, t))
      (spares : t.find? Operation.probeKey = s.table.find? Operation.probeKey) :
      Step s { s with table := t, others := s.others ++ [a] }

abbrev Steps : Probing τ → Probing τ → Prop := Relation.ReflTransGen Step

/-- The states that are reached from a table and a clock before any check. -/
def Reachable (t : Table τ) (clock : τ) (s : Probing τ) : Prop := Steps (start t clock) s

/-! ## What is true of every state -/

/-- What is true of every state that is reached while the entry lives. -/
structure Sound (t : Table τ) (clock : τ) (s : Probing τ) : Prop where
  since : clock ≤ s.clock
  follows (i : Nat) (p : Probe τ) (atI : s.probes[i]? = some p) :
    p.rest.Follows Operation.Probes (fun q r => q.smooth = true → Operation.Probed q.deeds r)
      (s.pastOf i)
  known (x : Nat × Deed τ) (mem : x ∈ s.record) : x.1 < s.probes.length
  readings (i : Nat) (now : τ) (mem : (i, .read now) ∈ s.record) : clock ≤ now ∧ now ≤ s.clock
  probing (x : Nat × Deed τ) (mem : x ∈ s.record) : x.2.IsProbing clock
  /-- The checks alone decide what becomes of the entry. -/
  row : s.table.find? Operation.probeKey =
    rowAfter Operation.probeKey (t.find? Operation.probeKey) (s.record.map (·.2))
  /-- The others alone decide what becomes of the other rows. -/
  rest (key : String) (other : key ≠ Operation.probeKey) :
    s.table.find? key = s.others.foldl (fun row a => a.onRow key row) (t.find? key)
  /-- A check finds what is there, and looks only after its write. -/
  fetched (before : List (Nat × Deed τ)) (i : Nat) (found : Option (Row τ))
    (after : List (Nat × Deed τ))
    (split : s.record = before ++ (i, .committed (.fetch Operation.probeKey) found) :: after) :
    found = rowAfter Operation.probeKey (t.find? Operation.probeKey) (before.map (·.2)) ∧
      ∃ n, (i, .committed (probeWrite n) ()) ∈ before

omit [MonotoneInstant τ] [Delay τ] in
theorem mem_pastOf {i : Nat} {d : Deed τ} : d ∈ (s.pastOf i).deeds ↔ (i, d) ∈ s.record := by
  constructor
  · intro mem
    obtain ⟨⟨j, d'⟩, hx, rfl⟩ := List.mem_map.1 mem
    obtain ⟨hrecord, hj⟩ := List.mem_filter.1 hx
    obtain rfl : j = i := by simpa using hj
    exact hrecord
  · intro mem
    exact List.mem_map.2 ⟨(i, d), List.mem_filter.2 ⟨mem, by simp⟩, rfl⟩

omit [Delay τ] in
theorem sound_start (t : Table τ) (clock : τ) : Sound t clock (start t clock) where
  since := le_rfl
  follows i p atI := by simp [start] at atI
  known x mem := by simp [start] at mem
  readings i now mem := by simp [start] at mem
  probing x mem := by simp [start] at mem
  row := rfl
  rest key other := rfl
  fetched before i found after split := by simp [start] at split

/-- A deed of a check, and the table that it leaves. -/
structure Fits (clock : τ) (s : Probing τ) (i : Nat) (d : Deed τ) (t' : Table τ) : Prop where
  probing : d.IsProbing clock
  reading (now : τ) (read : d = .read now) : now = s.clock
  row : t'.find? Operation.probeKey =
    d.onRow Operation.probeKey (s.table.find? Operation.probeKey)
  rest (key : String) (other : key ≠ Operation.probeKey) : t'.find? key = s.table.find? key
  fetched (found : Option (Row τ)) (fetch : d = .committed (.fetch Operation.probeKey) found) :
    found = s.table.find? Operation.probeKey ∧
      ∃ n, (i, .committed (probeWrite n) ()) ∈ s.record

section
omit [Delay τ]

/-- A row that a check has found is the entry. -/
theorem Sound.found_entry (h : Sound t clock s) {i : Nat} {row : Row τ}
    (mem : (i, .committed (.fetch Operation.probeKey) (some row)) ∈ s.record) :
    ∃ n, clock ≤ n ∧ row = probeRow n := by
  obtain ⟨before, after, split⟩ := List.append_of_mem mem
  obtain ⟨hfound, n, hwrote⟩ := h.fetched before i (some row) after split
  obtain ⟨first, between, rfl⟩ := List.append_of_mem hwrote
  have hprobing : ∀ x ∈ first ++ (i, .committed (probeWrite n) ()) :: between,
      x.2.IsProbing clock := by
    intro x hx
    exact h.probing x (split ▸ List.mem_append_left _ hx)
  rcases rowAfter_split hprobing _ hfound with ⟨hnone, -⟩ | ⟨m, hm, hrow, -⟩
  · cases hnone
  · exact ⟨m, hm, Option.some.inj hrow⟩

/-- What a check may attempt and commits fits. -/
theorem Sound.fits (h : Sound t clock s)
    (brief : s.clock ≤ Instant.plus clock (Instant.ofSeconds 10)) {i : Nat}
    {a : Transaction τ} (permitted : Operation.Probes (s.pastOf i).deeds a) {reply : a.Reply}
    {t' : Table τ} (done : a.commit s.table = .ok (reply, t')) :
    Fits clock s i (.committed a reply) t' := by
  have hrow (key : String) : t'.find? key = a.onRow key (s.table.find? key) :=
    Transaction.find?_commit done key
  have hother {key : String} (other : key ≠ Operation.probeKey) :
      ¬ Operation.probeKey = key := fun h => other h.symm
  cases permitted with
  | @write now read =>
    refine ⟨.wrote now (h.readings i now (mem_pastOf.1 read)).1, nofun, hrow _, fun key other => ?_,
      nofun⟩
    rw [hrow key]
    show (Option.or none (if Operation.probeKey = key then _ else none)).or _ = _
    rw [if_neg (hother other)]
    rfl
  | @lookUp now wrote =>
    refine ⟨.fetched reply, nofun, hrow _, fun key _ => hrow key, fun found fetch => ?_⟩
    obtain rfl : reply = found := by simpa using fetch
    exact ⟨Transaction.reply_fetch done, now, mem_pastOf.1 wrote⟩
  | @expire row now fetched read dead =>
    -- The row was the entry, which still lives.
    obtain ⟨n, hn, rfl⟩ := h.found_entry (mem_pastOf.1 fetched)
    have hnow : now ≤ s.clock := (h.readings i now (mem_pastOf.1 read)).2
    rw [isExpired_probeRow hn (hnow.trans brief)] at dead
    cases dead
  | remove =>
    refine ⟨.removed reply, nofun, hrow _, fun key other => ?_, nofun⟩
    have hkeep : (key != Operation.probeKey) = true := bne_iff_ne.2 other
    rw [hrow key]
    show Option.filter (fun _ => key != Operation.probeKey) _ = _
    rw [hkeep]
    cases s.table.find? key <;> rfl

/-- A check that is answered nothing of account goes on. -/
theorem Sound.pass (h : Sound t clock s) {i : Nat} {p : Probe τ} {e : Effect τ}
    {next : e.Reply → Program τ (Except Failure Bool)} {r : e.Reply}
    (atI : s.probes[i]? = some p) (asks : p.rest = .ask e next)
    (met : e.Meets s.clock s.table r s.table) (nothing : e.deed? r = none) :
    Sound t clock { s with probes := s.probes.set i { p with rest := next r } } where
  since := h.since
  follows j q atJ := by
    have hfollows := h.follows i p atI
    rw [asks] at hfollows
    rcases getElem?_set_cases atJ with ⟨rfl, rfl⟩ | ⟨-, h'⟩
    · have hnext := hfollows.2 r
      rw [pastOf, met.past_after, nothing, Option.toList_none, List.append_nil] at hnext
      exact hnext
    · exact h.follows j q h'
  known x mem := (h.known x mem).trans_eq (List.length_set).symm
  readings := h.readings
  probing := h.probing
  row := h.row
  rest := h.rest
  fetched := h.fetched

theorem Sound.does (h : Sound t clock s) {i : Nat} {p : Probe τ} {e : Effect τ}
    {next : e.Reply → Program τ (Except Failure Bool)} {r : e.Reply} {t' : Table τ} {d : Deed τ}
    (atI : s.probes[i]? = some p) (asks : p.rest = .ask e next)
    (met : e.Meets s.clock s.table r t') (does : e.deed? r = some d)
    (fits : Fits clock s i d t') :
    Sound t clock { s with
      table := t'
      probes := s.probes.set i { p with rest := next r }
      record := s.record ++ [(i, d)] } where
  since := h.since
  follows j q atJ := by
    have hfollows := h.follows i p atI
    rw [asks] at hfollows
    rcases getElem?_set_cases atJ with ⟨rfl, rfl⟩ | ⟨hj, h'⟩
    · have hnext := hfollows.2 r
      rw [pastOf, met.past_after, does, Option.toList_some] at hnext
      simpa [pastOf] using hnext
    · have hsame := h.follows j q h'
      simpa [pastOf, Ne.symm hj] using hsame
  known x mem := by
    rw [List.length_set]
    rcases List.mem_append.1 mem with mem | mem
    · exact h.known x mem
    · obtain rfl := List.mem_singleton.1 mem
      exact (List.getElem?_eq_some_iff.1 atI).1
  readings j now mem := by
    rcases List.mem_append.1 mem with mem | mem
    · exact h.readings j now mem
    · obtain ⟨rfl, hd⟩ := Prod.mk.inj (List.mem_singleton.1 mem)
      rw [fits.reading now hd.symm]
      exact ⟨h.since, le_rfl⟩
  probing x mem := by
    rcases List.mem_append.1 mem with mem | mem
    · exact h.probing x mem
    · obtain rfl := List.mem_singleton.1 mem
      exact fits.probing
  row := by
    rw [List.map_append, rowAfter_append, ← h.row]
    exact fits.row
  rest key other := (fits.rest key other).trans (h.rest key other)
  fetched before j found after split := by
    rcases List.eq_nil_or_concat after with rfl | ⟨init, last, rfl⟩
    · obtain ⟨hbefore, hlast⟩ := List.append_inj' split rfl
      obtain ⟨rfl, hd⟩ := Prod.mk.inj (List.singleton_inj.1 hlast)
      obtain ⟨hfound, hwrote⟩ := fits.fetched found hd
      rw [← hbefore, ← h.row]
      exact ⟨hfound, hwrote⟩
    · rw [List.concat_eq_append, ← List.cons_append, ← List.append_assoc] at split
      obtain ⟨hrecord, -⟩ := List.append_inj' split rfl
      exact h.fetched before j found init hrecord

/-- A step of a check preserves what is true while the entry lives. -/
theorem Sound.goes (h : Sound t clock s)
    (brief : s.clock ≤ Instant.plus clock (Instant.ofSeconds 10)) {i : Nat}
    (hgoes : Goes i s s') : Sound t clock s' := by
  cases hgoes with
  | answer p e next r t' atI asks met =>
    have hfollows := h.follows i p atI
    rw [asks] at hfollows
    rcases met.cases with ⟨hd, rfl⟩ | ⟨hd, rfl⟩ | ⟨a, reply, hd, done, permitted⟩
    · rw [hd, Option.toList_none, List.map_nil, List.append_nil]
      exact h.pass atI asks met hd
    · rw [hd]
      refine h.does atI asks met hd ⟨.read s.clock, fun now read => ?_, rfl, fun _ _ => rfl, nofun⟩
      exact (Deed.read.inj read).symm
    · rw [hd]
      exact h.does atI asks met hd (h.fits brief (permitted _ _ hfollows.1) done)

theorem Goes.clock_eq {i : Nat} (hgoes : Goes i s s') : s'.clock = s.clock := by
  cases hgoes
  rfl

end

theorem Step.clock_le (hstep : Step s s') : s.clock ≤ s'.clock := by
  cases hstep with
  | tick now later => exact later
  | go _ i goes => exact goes.clock_eq.ge
  | _ => exact le_rfl

theorem Sound.step (h : Sound t clock s)
    (brief : s.clock ≤ Instant.plus clock (Instant.ofSeconds 10))
    (hstep : Step s s') : Sound t clock s' := by
  cases hstep with
  | tick now later =>
    refine { h with since := h.since.trans later, readings := fun i n mem => ?_ }
    exact ⟨(h.readings i n mem).1, (h.readings i n mem).2.trans later⟩
  | check c =>
    refine { h with follows := fun i p atI => ?_, known := fun x mem => ?_ }
    · rcases getElem?_append_cases atI with h' | ⟨rfl, rfl⟩
      · exact h.follows i p h'
      · -- Nobody of this number has done anything.
        have hnone : s.record.filter (·.1 == s.probes.length) = [] := by
          rw [List.filter_eq_nil_iff]
          intro x mem
          simpa using Nat.ne_of_lt (h.known x mem)
        show Program.Follows _ _ _ ⟨List.map _ (s.record.filter _), true⟩
        rw [hnone]
        refine Program.Follows.mono (fun q r hr => ?_) (Operation.follows_checkCache c)
        cases r <;> exact hr
    · rw [List.length_append]
      exact Nat.lt_add_right _ (h.known x mem)
  | go _ i goes => exact h.goes brief goes
  | other a r t' done spares =>
    refine { h with row := spares.trans h.row, rest := fun key other => ?_ }
    rw [List.foldl_append, ← h.rest key other]
    exact Transaction.find?_commit done key

/-- While the entry lives, every state that is reached is sound.  The induction is on the run; the
clock does not go back, so what lives at its end has lived all along. -/
theorem Reachable.sound (h : Reachable t clock s)
    (brief : s.clock ≤ Instant.plus clock (Instant.ofSeconds 10)) : Sound t clock s := by
  induction h with
  | refl => exact sound_start t clock
  | tail _ hstep ih =>
    have hbrief := hstep.clock_le.trans brief
    exact (ih hbrief).step hbrief hstep

end Probing

end ExpiringStore
