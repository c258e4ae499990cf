import ExpiringStore.Proofs.Call.Writes
import ExpiringStore.Proofs.Lifetime.Exact
import ExpiringStore.Proofs.Lists
import ExpiringStore.Proofs.Table.Commit
import Mathlib.Logic.Relation

/-!
# Interleaved calls

Any number of calls, of one store or of several, share a table and a clock that never goes back.
At each step the clock advances, another call begins, or one of the calls under way is answered the
effect that it asks for.  A transaction takes effect as a whole or fails and leaves the table as it
is; what a store remembers and what its listeners do is answered in any way.

    Step s s'         one step
    Reachable t s     s is reached from the table t, before any call
    Sound s           every caller has followed the rule of its call, and the record of commits
                      is what the callers did (Reachable.sound)
-/

namespace ExpiringStore

/-- A call under way: what it has done, and what remains of its program. -/
structure Caller (τ : Type) where
  config : Config τ
  call : Call
  past : Past τ
  rest : Program τ (Except Failure Answer)

/-- A transaction that took effect. -/
structure Commit (τ : Type) where
  /-- The number of the caller. -/
  caller : Nat
  clock : τ
  /-- The table that the transaction found. -/
  found : Table τ
  transaction : Transaction τ
  reply : transaction.Reply

/-- A table and a clock with those who use them. -/
structure System (τ : Type) where
  clock : τ
  table : Table τ
  callers : List (Caller τ)
  /-- In the order in which they took effect. -/
  commits : List (Commit τ)

namespace Caller

variable {τ : Type}

/-- A call that begins. -/
def new [Instant τ] [Delay τ] (c : Config τ) (call : Call) : Caller τ :=
  ⟨c, call, {}, ExceptT.run (call.program c)⟩

def answered (caller : Caller τ) (e : Effect τ) (r : e.Reply)
    (rest : Program τ (Except Failure Answer)) : Caller τ :=
  { caller with past := caller.past.after e r, rest }

/-- What a call returned, if it is over. -/
def result? (caller : Caller τ) : Option (Except Failure Answer) :=
  match caller.rest with
  | .done r => some r
  | .ask _ _ => none

end Caller

def Effect.Answers {τ : Type} (clock : τ) : (e : Effect τ) → e.Reply → Prop
  | .readClock, r => r = .ok clock
  | .attempt _, r => ∃ f, r = .error f
  | _, _ => True

namespace Past

variable {τ : Type}

theorem deeds_after (p : Past τ) (e : Effect τ) (r : e.Reply) : p.deeds ⊆ (p.after e r).deeds := by
  cases e with
  | readClock =>
    cases r with
    | ok now => exact List.subset_append_left ..
    | error f => exact List.Subset.refl _
  | attempt a =>
    cases r with
    | ok r => exact List.subset_append_left ..
    | error f => exact List.Subset.refl _
  | engine step => exact (deeds_after_engine p step r).symm ▸ List.Subset.refl _
  | _ => exact List.Subset.refl _

/-- While the table stays as it is, only a reading of the clock adds to what was done. -/
theorem deeds_after_answer {p : Past τ} {clock : τ} {e : Effect τ} {r : e.Reply}
    (h : e.Answers clock r) : (p.after e r).deeds = p.deeds ∨
      (p.after e r).deeds = p.deeds ++ [.read clock] := by
  cases e with
  | readClock =>
    obtain rfl : r = .ok clock := h
    exact .inr rfl
  | attempt a =>
    obtain ⟨f, rfl⟩ := h
    exact .inl rfl
  | engine step => exact .inl (deeds_after_engine p step r)
  | _ => exact .inl rfl

end Past

namespace Commit

variable {τ : Type}

def deed (c : Commit τ) : Deed τ := .committed c.transaction c.reply

end Commit

def Deed.isCommitted {τ : Type} : Deed τ → Bool
  | .read _ => false
  | .committed _ _ => true

namespace System

variable {τ : Type} [OrderedInstant τ] {s s' : System τ}

/-- Nobody has called yet. -/
def start (t : Table τ) (clock : τ) : System τ := ⟨clock, t, [], []⟩

/-- What is true of every state that is reached. -/
structure Sound (s : System τ) : Prop where
  /-- Every caller follows the rule of its call. -/
  follows (i : Nat) (caller : Caller τ) (atI : s.callers[i]? = some caller) :
    caller.rest.Follows (caller.call.Makes caller.config) (caller.call.EndsSo caller.config)
      caller.past
  /-- Nobody has read more than the clock shows. -/
  readings (i : Nat) (caller : Caller τ) (atI : s.callers[i]? = some caller) (now : τ)
    (read : .read now ∈ caller.past.deeds) : now ≤ s.clock
  /-- What callers have committed is what the record says. -/
  recorded (i : Nat) (caller : Caller τ) (atI : s.callers[i]? = some caller) :
    caller.past.deeds.filter Deed.isCommitted =
      (s.commits.filter (·.caller == i)).map Commit.deed
  made (c : Commit τ) (mem : c ∈ s.commits) : ∃ caller, s.callers[c.caller]? = some caller ∧
    caller.call.Makes caller.config caller.past.deeds c.transaction
  done (c : Commit τ) (mem : c ∈ s.commits) :
    c.clock ≤ s.clock ∧ ∃ t, c.transaction.commit c.found = .ok (c.reply, t)

theorem sound_start (t : Table τ) (clock : τ) : Sound (start t clock) where
  follows i caller atI := by simp [start] at atI
  readings i caller atI := by simp [start] at atI
  recorded i caller atI := by simp [start] at atI
  made c mem := by simp [start] at mem
  done c mem := by simp [start] at mem

theorem Sound.lt_length (h : Sound s) {c : Commit τ} (mem : c ∈ s.commits) :
    c.caller < s.callers.length := by
  obtain ⟨caller, hc, -⟩ := h.made c mem
  exact (List.getElem?_eq_some_iff.1 hc).1

/-- What a caller has committed is on record. -/
theorem Sound.commit_of_deed (h : Sound s) {i : Nat} {caller : Caller τ}
    (atI : s.callers[i]? = some caller) {a : Transaction τ} {r : a.Reply}
    (mem : .committed a r ∈ caller.past.deeds) :
    ∃ clock found, (⟨i, clock, found, a, r⟩ : Commit τ) ∈ s.commits := by
  have hmem : .committed a r ∈ caller.past.deeds.filter Deed.isCommitted :=
    List.mem_filter.2 ⟨mem, rfl⟩
  rw [h.recorded i caller atI] at hmem
  obtain ⟨c, hc, hdeed⟩ := List.mem_map.1 hmem
  obtain ⟨j, clock, found, b, r'⟩ := c
  obtain ⟨hrecord, hj⟩ := List.mem_filter.1 hc
  obtain rfl : j = i := by simpa using hj
  cases hdeed
  exact ⟨clock, found, hrecord⟩

/-- What is on record its caller has committed. -/
theorem Sound.deed_of_commit (h : Sound s) {c : Commit τ} (mem : c ∈ s.commits)
    {caller : Caller τ} (atC : s.callers[c.caller]? = some caller) :
    c.deed ∈ caller.past.deeds := by
  have hmem : c.deed ∈ (s.commits.filter (·.caller == c.caller)).map Commit.deed := by
    refine List.mem_map_of_mem (List.mem_filter.2 ⟨mem, ?_⟩)
    simp
  rw [← h.recorded c.caller caller atC] at hmem
  exact (List.mem_filter.1 hmem).1

theorem Sound.tick (h : Sound s) {now : τ} (later : s.clock ≤ now) :
    Sound { s with clock := now } where
  follows := h.follows
  readings i caller atI t read := (h.readings i caller atI t read).trans later
  recorded := h.recorded
  made := h.made
  done c mem := ⟨(h.done c mem).1.trans later, (h.done c mem).2⟩

/-- A caller that goes on keeps its call, and what it might attempt it still may. -/
theorem Sound.made_set (h : Sound s) {i : Nat} {caller : Caller τ}
    (atI : s.callers[i]? = some caller) (e : Effect τ) (r : e.Reply)
    (rest : Program τ (Except Failure Answer)) {c : Commit τ} (mem : c ∈ s.commits) :
    ∃ d, (s.callers.set i (caller.answered e r rest))[c.caller]? = some d ∧
      d.call.Makes d.config d.past.deeds c.transaction := by
  obtain ⟨d, hd, hmade⟩ := h.made c mem
  by_cases hi : i = c.caller
  · subst hi
    obtain rfl := Option.some.inj (atI.symm.trans hd)
    refine ⟨caller.answered e r rest, ?_, hmade.mono (Past.deeds_after _ e r)⟩
    rw [List.getElem?_set_self (h.lt_length mem)]
  · exact ⟨d, by rwa [List.getElem?_set_ne hi], hmade⟩

theorem Sound.answer (h : Sound s) {i : Nat} {caller : Caller τ} {e : Effect τ}
    {next : e.Reply → Program τ (Except Failure Answer)} {r : e.Reply}
    (atI : s.callers[i]? = some caller) (asks : caller.rest = .ask e next)
    (possible : e.Answers s.clock r) :
    Sound { s with callers := s.callers.set i (caller.answered e r (next r)) } := by
  have hfollows := h.follows i caller atI
  rw [asks] at hfollows
  constructor
  · intro j d atJ
    rcases getElem?_set_cases atJ with ⟨rfl, rfl⟩ | ⟨-, h'⟩
    · exact hfollows.2 r
    · exact h.follows j d h'
  · intro j d atJ now read
    rcases getElem?_set_cases atJ with ⟨rfl, rfl⟩ | ⟨-, h'⟩
    · replace read : .read now ∈ (caller.past.after e r).deeds := read
      rcases Past.deeds_after_answer (p := caller.past) possible with hd | hd
      · exact h.readings j caller atI now (hd ▸ read)
      · rw [hd, List.mem_append, List.mem_singleton] at read
        rcases read with read | hnow
        · exact h.readings j caller atI now read
        · exact (Deed.read.inj hnow).le
    · exact h.readings j d h' now read
  · intro j d atJ
    rcases getElem?_set_cases atJ with ⟨rfl, rfl⟩ | ⟨-, h'⟩
    · show (caller.past.after e r).deeds.filter _ = _
      rcases Past.deeds_after_answer (p := caller.past) possible with hd | hd
      · rw [hd]
        exact h.recorded j caller atI
      · rw [hd, List.filter_append]
        exact (List.append_nil _).trans (h.recorded j caller atI)
    · exact h.recorded j d h'
  · exact fun c mem => h.made_set atI e r (next r) mem
  · exact h.done

theorem Sound.commit (h : Sound s) {i : Nat} {caller : Caller τ} {a : Transaction τ}
    {next : (Effect.attempt a).Reply → Program τ (Except Failure Answer)} {r : a.Reply}
    {t : Table τ} (atI : s.callers[i]? = some caller) (asks : caller.rest = .ask (.attempt a) next)
    (done : a.commit s.table = .ok (r, t)) :
    Sound { s with
      table := t
      callers := s.callers.set i (caller.answered (.attempt a) (.ok r) (next (.ok r)))
      commits := s.commits ++ [⟨i, s.clock, s.table, a, r⟩] } := by
  have hfollows := h.follows i caller atI
  rw [asks] at hfollows
  constructor
  · intro j d atJ
    rcases getElem?_set_cases atJ with ⟨rfl, rfl⟩ | ⟨-, h'⟩
    · exact hfollows.2 (.ok r)
    · exact h.follows j d h'
  · intro j d atJ now read
    rcases getElem?_set_cases atJ with ⟨rfl, rfl⟩ | ⟨-, h'⟩
    · replace read : Deed.read now ∈ caller.past.deeds ++ [Deed.committed a r] := read
      refine h.readings j caller atI now ?_
      simpa using read
    · exact h.readings j d h' now read
  · intro j d atJ
    rcases getElem?_set_cases atJ with ⟨rfl, rfl⟩ | ⟨hj, h'⟩
    · show (caller.past.deeds ++ [Deed.committed a r]).filter _ = _
      rw [List.filter_append, h.recorded j caller atI]
      simp [Deed.isCommitted, Commit.deed]
    · rw [List.filter_append, h.recorded j d h']
      simp [Ne.symm hj]
  · intro c mem
    rcases List.mem_append.1 mem with mem | mem
    · exact h.made_set atI (.attempt a) (.ok r) _ mem
    · obtain rfl := List.mem_singleton.1 mem
      refine ⟨caller.answered (.attempt a) (.ok r) (next (.ok r)), ?_, ?_⟩
      · exact List.getElem?_set_self (List.getElem?_eq_some_iff.1 atI).1
      · exact Call.Makes.mono (Past.deeds_after _ _ _) hfollows.1
  · intro c mem
    rcases List.mem_append.1 mem with mem | mem
    · exact h.done c mem
    · obtain rfl := List.mem_singleton.1 mem
      exact ⟨le_rfl, t, done⟩

/-! ## Steps -/

variable [Delay τ]

/-- One step of one of those who share the table. -/
inductive Step : System τ → System τ → Prop
  | tick (s : System τ) (now : τ) (later : s.clock ≤ now) : Step s { s with clock := now }
  | call (s : System τ) (c : Config τ) (call : Call) :
      Step s { s with callers := s.callers ++ [.new c call] }
  | commit (s : System τ) (i : Nat) (caller : Caller τ) (a : Transaction τ)
      (next : (Effect.attempt a).Reply → Program τ (Except Failure Answer)) (r : a.Reply)
      (t : Table τ) (atI : s.callers[i]? = some caller)
      (asks : caller.rest = .ask (.attempt a) next) (done : a.commit s.table = .ok (r, t)) :
      Step s { s with
        table := t
        callers := s.callers.set i (caller.answered (.attempt a) (.ok r) (next (.ok r)))
        commits := s.commits ++ [⟨i, s.clock, s.table, a, r⟩] }
  | answer (s : System τ) (i : Nat) (caller : Caller τ) (e : Effect τ)
      (next : e.Reply → Program τ (Except Failure Answer)) (r : e.Reply)
      (atI : s.callers[i]? = some caller) (asks : caller.rest = .ask e next)
      (possible : e.Answers s.clock r) :
      Step s { s with callers := s.callers.set i (caller.answered e r (next r)) }

abbrev Steps : System τ → System τ → Prop := Relation.ReflTransGen Step

/-- The states that are reached from a table before any call. -/
def Reachable (t : Table τ) (s : System τ) : Prop := ∃ clock, Steps (start t clock) s

theorem Sound.call (h : Sound s) (c : Config τ) (call : Call) :
    Sound { s with callers := s.callers ++ [.new c call] } := by
  constructor
  · intro i caller atI
    rcases getElem?_append_cases atI with h' | ⟨-, rfl⟩
    · exact h.follows i caller h'
    · exact Call.follows_program c call
  · intro i caller atI now read
    rcases getElem?_append_cases atI with h' | ⟨-, rfl⟩
    · exact h.readings i caller h' now read
    · cases read
  · intro i caller atI
    rcases getElem?_append_cases atI with h' | ⟨rfl, rfl⟩
    · exact h.recorded i caller h'
    · -- Nobody of this number has committed anything.
      have hnone : s.commits.filter (·.caller == s.callers.length) = [] := by
        rw [List.filter_eq_nil_iff]
        intro d hd
        simpa using Nat.ne_of_lt (h.lt_length hd)
      simp only [hnone]
      rfl
  · intro d mem
    obtain ⟨caller, hd, hmade⟩ := h.made d mem
    refine ⟨caller, ?_, hmade⟩
    exact (List.getElem?_append_left (h.lt_length mem)).trans hd
  · exact h.done

theorem Sound.step (h : Sound s) (hstep : Step s s') : Sound s' := by
  cases hstep with
  | tick now later => exact h.tick later
  | call c call => exact h.call c call
  | commit i caller a next r t atI asks done => exact h.commit atI asks done
  | answer i caller e next r atI asks possible => exact h.answer atI asks possible

theorem Sound.steps (h : Sound s) (hsteps : Steps s s') : Sound s' := by
  induction hsteps with
  | refl => exact h
  | tail _ hstep ih => exact ih.step hstep

theorem Reachable.sound {t : Table τ} (h : Reachable t s) : Sound s := by
  obtain ⟨clock, hsteps⟩ := h
  exact (sound_start t clock).steps hsteps

/-! ## What a step does to the table -/

/-- Callers may go on and others may join them, but nobody's call becomes another. -/
def Grows (s s' : System τ) : Prop :=
  ∀ (i : Nat) (caller : Caller τ), s.callers[i]? = some caller →
    ∃ later, s'.callers[i]? = some later ∧ later.config = caller.config ∧ later.call = caller.call

omit [OrderedInstant τ] [Delay τ] in
theorem grows_set {i : Nat} {caller : Caller τ} (atI : s.callers[i]? = some caller)
    (e : Effect τ) (r : e.Reply) (rest : Program τ (Except Failure Answer))
    (hs' : s'.callers = s.callers.set i (caller.answered e r rest)) : Grows s s' := by
  intro j d atJ
  rw [hs']
  by_cases hj : i = j
  · subst hj
    obtain rfl := Option.some.inj (atI.symm.trans atJ)
    exact ⟨_, List.getElem?_set_self (List.getElem?_eq_some_iff.1 atI).1, rfl, rfl⟩
  · exact ⟨d, by rwa [List.getElem?_set_ne hj], rfl, rfl⟩

/-- A step that is the commit of a transaction that its caller may make. -/
structure Takes (s : System τ) (c : Commit τ) (caller : Caller τ) (s' : System τ) : Prop where
  under : s.callers[c.caller]? = some caller
  made : caller.call.Makes caller.config caller.past.deeds c.transaction
  readings (now : τ) (read : .read now ∈ caller.past.deeds) : now ≤ s.clock
  found : c.found = s.table
  stamped : c.clock = s.clock
  done : c.transaction.commit s.table = .ok (c.reply, s'.table)
  clock : s'.clock = s.clock
  commits : s'.commits = s.commits ++ [c]
  grows : Grows s s'

/-- A step that commits nothing leaves the table as it is. -/
structure Leaves (s s' : System τ) : Prop where
  clock : s.clock ≤ s'.clock
  table : s'.table = s.table
  commits : s'.commits = s.commits
  grows : Grows s s'

/-- Every step commits one transaction or leaves the table as it is. -/
theorem Step.takes_or_leaves (h : Sound s) (hstep : Step s s') :
    (∃ c caller, Takes s c caller s') ∨ Leaves s s' := by
  cases hstep with
  | tick now later => exact .inr ⟨later, rfl, rfl, fun i caller atI => ⟨caller, atI, rfl, rfl⟩⟩
  | call c call =>
    refine .inr ⟨le_rfl, rfl, rfl, fun i caller atI => ⟨caller, ?_, rfl, rfl⟩⟩
    exact (List.getElem?_append_left (List.getElem?_eq_some_iff.1 atI).1).trans atI
  | commit i caller a next r t atI asks done =>
    have hfollows := h.follows i caller atI
    rw [asks] at hfollows
    exact .inl ⟨⟨i, s.clock, s.table, a, r⟩, caller, atI, hfollows.1, h.readings i caller atI, rfl,
      rfl, done, rfl, rfl, grows_set atI _ _ _ rfl⟩
  | answer i caller e next r atI asks possible =>
    exact .inr ⟨le_rfl, rfl, rfl, grows_set atI _ _ _ rfl⟩

/-- What holds at the start and is preserved by each step of a sound state holds ever after. -/
theorem Reachable.induct {t : Table τ} {P : System τ → Prop} (h : Reachable t s)
    (base : ∀ clock, P (start t clock))
    (commit : ∀ s c caller s', Reachable t s → P s → Takes s c caller s' → P s')
    (leave : ∀ s s', Reachable t s → P s → Leaves s s' → P s') : P s := by
  obtain ⟨clock, hsteps⟩ := h
  induction hsteps with
  | refl => exact base clock
  | tail hs hstep ih =>
    have hreach : Reachable t _ := ⟨clock, hs⟩
    rcases hstep.takes_or_leaves hreach.sound with ⟨c, caller, htakes⟩ | hleaves
    · exact commit _ c caller _ hreach ih htakes
    · exact leave _ _ hreach ih hleaves

end System

end ExpiringStore
