import ExpiringStore.Proofs.Desk.Basic
import ExpiringStore.Proofs.Lists
import Mathlib.Algebra.Order.Ring.Int
import Mathlib.Logic.Relation

/-!
# Tills

One store with its four counters and its listeners, and any number of calls under way.  At each step
another call begins, or one of the calls is answered the effect that it asks for, in any way that
the effect can be answered.  Others may change the table at any time, and an attempt at a
transaction may fail for any reason and then leaves the table as it is.  When no call is under way
the counters may be set back to nothing.

What is counted is counted by somebody: each counter is the sum of what the calls since it was set
back have noted, and what listeners have heard is what these calls have told them.

    Step c s s'              one step at a till
    Sound c s                the invariant of a till                             (Sound.steps)
-/

namespace ExpiringStore

variable {τ : Type}

/-! ## What is counted -/

def Statistics.counted (s : Statistics) : Statistics.Counter → Int
  | .hits => s.hits
  | .misses => s.misses
  | .puts => s.puts
  | .evictions => s.evictions

def Bookkeeping.adds (k : Statistics.Counter) : Bookkeeping τ → Int
  | .record k' n => if k' = k then n else 0
  | _ => 0

def Mark.adds (k : Statistics.Counter) : Mark τ → Int
  | .noted b => b.adds k
  | _ => 0

/-- What marks add to a counter. -/
def noted (k : Statistics.Counter) (ms : List (Mark τ)) : Int := (ms.map (Mark.adds k)).sum

theorem noted_append (k : Statistics.Counter) (ms ms' : List (Mark τ)) :
    noted k (ms ++ ms') = noted k ms + noted k ms' := by
  unfold noted
  rw [List.map_append, List.sum_append]

/-- Is a mark of a listener being told of an event of a kind? -/
def Mark.tells (l : ListenerId) (kind : Event → Bool) : Mark τ → Bool
  | .told l' e => l' == l && kind e
  | _ => false

/-- How often a listener was told of an event of a kind. -/
def timesTold (l : ListenerId) (kind : Event → Bool) (ms : List (Mark τ)) : Nat :=
  ms.countP (Mark.tells l kind)

/-- How often a listener has heard of an event of a kind. -/
def timesHeard (l : ListenerId) (kind : Event → Bool) (heard : List (ListenerId × Event)) : Nat :=
  heard.countP fun h => h.1 == l && kind h.2

/-! ## Deals -/

/-- A transaction that took effect: the table as it was found, and as it was left. -/
structure Deal (τ : Type) where
  transaction : Transaction τ
  reply : transaction.Reply
  found : Table τ
  left : Table τ

def Dealt [Instant τ] : List (Mark τ) → List (Deal τ) → Prop
  | [], ks => ks = []
  | .committed a r :: ms, ks => ∃ found left rest, a.commit found = .ok (r, left) ∧
      ks = ⟨a, r, found, left⟩ :: rest ∧ Dealt ms rest
  | _ :: ms, ks => Dealt ms ks

theorem dealt_append [Instant τ] {ms ms' : List (Mark τ)} {ks : List (Deal τ)} :
    Dealt (ms ++ ms') ks ↔ ∃ first second, ks = first ++ second ∧ Dealt ms first ∧
      Dealt ms' second := by
  induction ms generalizing ks with
  | nil =>
    constructor
    · intro h
      exact ⟨[], ks, rfl, rfl, h⟩
    · rintro ⟨first, second, rfl, rfl, h⟩
      exact h
  | cons m rest ih =>
    cases m with
    | committed a r =>
      constructor
      · rintro ⟨found, left, ks, hcommit, rfl, h⟩
        obtain ⟨first, second, rfl, hfirst, hsecond⟩ := ih.1 h
        exact ⟨_ :: first, second, rfl, ⟨found, left, first, hcommit, rfl, hfirst⟩, hsecond⟩
      · rintro ⟨_, second, rfl, ⟨found, left, first, hcommit, rfl, hfirst⟩, hsecond⟩
        exact ⟨found, left, first ++ second, hcommit, rfl,
          ih.2 ⟨first, second, rfl, hfirst, hsecond⟩⟩
    | read | recalled | noted | listed | told => exact ih

/-! ## Tills -/

/-- A call under way: its trail, what remains of its program, and what it has dealt. -/
structure Party (τ : Type) where
  call : Call
  trail : Trail τ
  rest : Program τ (Except Failure Answer)
  deals : List (Deal τ)

/-- A store at work. -/
structure Till (τ : Type) where
  table : Table τ
  statistics : Statistics
  /-- What listeners were told since the counters were set back. -/
  heard : List (ListenerId × Event)
  /-- The calls since then. -/
  parties : List (Party τ)

namespace Party

/-- A call that begins. -/
def new [Instant τ] [Delay τ] (c : Config τ) (call : Call) : Party τ :=
  ⟨call, {}, ExceptT.run (call.program c), []⟩

def answered (v : Party τ) (e : Effect τ) (r : e.Reply)
    (rest : Program τ (Except Failure Answer)) (deals : List (Deal τ)) : Party τ :=
  { v with trail := v.trail.after e r, rest, deals := v.deals ++ deals }

/-- What a call returned, if it is over. -/
def result? (v : Party τ) : Option (Except Failure Answer) :=
  match v.rest with
  | .done r => some r
  | .ask _ _ => none

end Party

namespace Till

/-- Nobody has called yet. -/
def start (t : Table τ) : Till τ := ⟨t, {}, [], []⟩

/-- Is no call under way? -/
def IsQuiet (s : Till τ) : Prop := ∀ v ∈ s.parties, v.result?.isSome = true

/-- A party at a till goes on. -/
def goOn (s : Till τ) (i : Nat) (v : Party τ) (e : Effect τ) (r : e.Reply)
    (rest : Program τ (Except Failure Answer)) (deals : List (Deal τ) := []) : Till τ :=
  { s with parties := s.parties.set i (v.answered e r rest deals) }

end Till

/-- An answer that changes neither the table nor the counters, and of which no listener is told. -/
def Effect.IsAside : (e : Effect τ) → e.Reply → Prop
  | .attempt _, .ok _ => False
  | .bookkeep _, _ | .notify _ _, _ => False
  | _, _ => True

namespace Till

variable [Instant τ] [Delay τ]

/-- One step at a till. -/
inductive Step (c : Config τ) : Till τ → Till τ → Prop
  /-- Others change the table. -/
  | others (s : Till τ) (t : Table τ) : Step c s { s with table := t }
  | call (s : Till τ) (call : Call) : Step c s { s with parties := s.parties ++ [.new c call] }
  | commit (s : Till τ) (i : Nat) (v : Party τ) (a : Transaction τ)
      (next : (Effect.attempt a).Reply → Program τ (Except Failure Answer)) (r : a.Reply)
      (t : Table τ) (atI : s.parties[i]? = some v) (asks : v.rest = .ask (.attempt a) next)
      (done : a.commit s.table = .ok (r, t)) :
      Step c s { s.goOn i v (.attempt a) (.ok r) (next (.ok r)) [⟨a, r, s.table, t⟩] with
        table := t }
  | note (s : Till τ) (i : Nat) (v : Party τ) (b : Bookkeeping τ)
      (next : Unit → Program τ (Except Failure Answer))
      (atI : s.parties[i]? = some v) (asks : v.rest = .ask (.bookkeep b) next) :
      Step c s { s.goOn i v (.bookkeep b) () (next ()) with
        statistics := s.statistics.after b }
  /-- A listener is told of an event; it may fail. -/
  | tell (s : Till τ) (i : Nat) (v : Party τ) (l : ListenerId) (e : Event)
      (next : Option String → Program τ (Except Failure Answer)) (r : Option String)
      (atI : s.parties[i]? = some v) (asks : v.rest = .ask (.notify l e) next) :
      Step c s { s.goOn i v (.notify l e) r (next r) with heard := s.heard ++ [(l, e)] }
  | answer (s : Till τ) (i : Nat) (v : Party τ) (e : Effect τ)
      (next : e.Reply → Program τ (Except Failure Answer)) (r : e.Reply)
      (atI : s.parties[i]? = some v) (asks : v.rest = .ask e next) (aside : e.IsAside r) :
      Step c s (s.goOn i v e r (next r))
  /-- The counters are set back. -/
  | reset (s : Till τ) (quiet : s.IsQuiet) : Step c s (start s.table)

abbrev Steps (c : Config τ) : Till τ → Till τ → Prop := Relation.ReflTransGen (Step c)

end Till

/-! ## The invariant -/

/-- What is true of every call under way. -/
structure Party.Sound [Instant τ] [Delay τ] (c : Config τ) (v : Party τ) : Prop where
  traces : v.rest.Traces Call.Books (v.call.Concludes c) v.trail
  dealt : Dealt v.trail.marks v.deals

namespace Till

/-- The sum of something over all parties. -/
def total {β : Type} [AddCommMonoid β] (s : Till τ) (f : Party τ → β) : β := (s.parties.map f).sum

variable [Instant τ] [Delay τ]

/-- What is true of every till. -/
structure Sound (c : Config τ) (s : Till τ) : Prop where
  parties (v : Party τ) (mem : v ∈ s.parties) : v.Sound c
  statistics (k : Statistics.Counter) :
    s.statistics.counted k = s.total fun v => noted k v.trail.marks
  heard (l : ListenerId) (kind : Event → Bool) :
    timesHeard l kind s.heard = s.total fun v => timesTold l kind v.trail.marks

theorem sound_start (c : Config τ) (t : Table τ) : Sound c (start t) where
  parties v mem := nomatch mem
  statistics k := by cases k <;> rfl
  heard l kind := rfl

variable {c : Config τ} {s s' : Till τ} {i : Nat} {v : Party τ}

/-- One party goes on.  The mark that it leaves, if it leaves one, is added to the counters and to
what was heard. -/
theorem Sound.goes_on (h : Sound c s) (atI : s.parties[i]? = some v) {e : Effect τ} {r : e.Reply}
    {next : e.Reply → Program τ (Except Failure Answer)} (asks : v.rest = .ask e next)
    {deals : List (Deal τ)} (dealt : Dealt (e.mark? r).toList deals)
    (hparties : s'.parties = s.parties.set i (v.answered e r (next r) deals))
    (hstatistics : ∀ k,
      s'.statistics.counted k = s.statistics.counted k + noted k (e.mark? r).toList)
    (hheard : ∀ l kind, timesHeard l kind s'.heard = timesHeard l kind s.heard +
      timesTold l kind (e.mark? r).toList) : Sound c s' where
  parties u mem := by
    have sound := h.parties v (List.mem_of_getElem? atI)
    rw [hparties] at mem
    rcases List.mem_or_eq_of_mem_set mem with mem | rfl
    · exact h.parties u mem
    · have htraces := sound.traces
      rw [asks] at htraces
      refine ⟨htraces.2 r, ?_⟩
      show Dealt (v.trail.after e r).marks (v.deals ++ deals)
      rw [Trail.marks_after]
      exact dealt_append.2 ⟨v.deals, deals, rfl, sound.dealt, dealt⟩
  statistics k := by
    have hadds : noted k (v.answered e r (next r) deals).trail.marks =
        noted k v.trail.marks + noted k (e.mark? r).toList := by
      show noted k (v.trail.after e r).marks = _
      rw [Trail.marks_after, noted_append]
    rw [hstatistics, h.statistics]
    unfold total
    rw [hparties, sum_map_set _ atI hadds]
  heard l kind := by
    have htold : timesTold l kind (v.answered e r (next r) deals).trail.marks =
        timesTold l kind v.trail.marks + timesTold l kind (e.mark? r).toList := by
      show timesTold l kind (v.trail.after e r).marks = _
      rw [Trail.marks_after]
      exact List.countP_append
    rw [hheard, h.heard]
    unfold total
    rw [hparties, sum_map_set _ atI htold]

omit [Delay τ] in
/-- What is answered aside leaves a mark of which nothing is dealt, counted or told, or none. -/
theorem marks_of_aside {e : Effect τ} {r : e.Reply} (aside : e.IsAside r) :
    Dealt (e.mark? r).toList [] ∧ (∀ k, noted k (e.mark? r).toList = 0) ∧
      ∀ l kind, timesTold l kind (e.mark? r).toList = 0 := by
  cases e with
  | readClock => cases r <;> exact ⟨rfl, fun _ => rfl, fun _ _ => rfl⟩
  | attempt a =>
    cases r with
    | ok r => cases aside
    | error f => exact ⟨rfl, fun _ => rfl, fun _ _ => rfl⟩
  | bookkeep | notify => cases aside
  | _ => exact ⟨rfl, fun _ => rfl, fun _ _ => rfl⟩

omit [Instant τ] [Delay τ] in
theorem counted_after (s : Statistics) (b : Bookkeeping τ) (k : Statistics.Counter) :
    (s.after b).counted k = s.counted k + noted k [.noted b] := by
  cases b with
  | record k' n =>
    cases k <;> cases k' <;>
      simp [Statistics.after, Statistics.record, Statistics.counted, noted, Mark.adds,
        Bookkeeping.adds]
  | forgetSize | keepSize => exact (add_zero _).symm

theorem Sound.step (h : Sound c s) (hstep : Step c s s') : Sound c s' := by
  cases hstep with
  | others t => exact ⟨h.parties, h.statistics, h.heard⟩
  | call call =>
    refine ⟨fun v mem => ?_, fun k => ?_, fun l kind => ?_⟩
    · rcases List.mem_append.1 mem with mem | mem
      · exact h.parties v mem
      · obtain rfl := List.mem_singleton.1 mem
        exact ⟨Call.concludes_program c call, rfl⟩
    · rw [total, List.map_append, List.sum_append]
      exact (h.statistics k).trans (add_zero _).symm
    · rw [total, List.map_append, List.sum_append]
      exact (h.heard l kind).trans (add_zero _).symm
  | commit i v a next r t atI asks done =>
    have dealt : Dealt [.committed a r] [⟨a, r, s.table, t⟩] := ⟨_, _, [], done, rfl, rfl⟩
    exact h.goes_on atI (e := .attempt a) (r := .ok r) asks dealt rfl
      (fun k => (add_zero _).symm) fun l kind => rfl
  | note i v b next atI asks =>
    have dealt : Dealt [.noted b] [] := rfl
    exact h.goes_on atI asks dealt rfl (counted_after s.statistics b) fun l kind => rfl
  | tell i v l e next r atI asks =>
    have dealt : Dealt (τ := τ) [.told l e] [] := rfl
    refine h.goes_on atI asks dealt rfl (fun k => (add_zero _).symm) fun l' kind => ?_
    exact List.countP_append
  | answer i v e next r atI asks aside =>
    obtain ⟨hdealt, hnoted, htold⟩ := marks_of_aside aside
    refine h.goes_on atI asks hdealt rfl (fun k => ?_) fun l kind => ?_
    · rw [hnoted, add_zero]
      rfl
    · rw [htold]
      rfl
  | reset quiet => exact sound_start c s.table

theorem Sound.steps (h : Sound c s) (hsteps : Steps c s s') : Sound c s' := by
  induction hsteps with
  | refl => exact h
  | tail _ hstep ih => exact ih.step hstep

end Till

end ExpiringStore
