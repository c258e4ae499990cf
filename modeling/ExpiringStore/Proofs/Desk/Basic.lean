import ExpiringStore.Proofs.Call.AccountedWrites
import ExpiringStore.Proofs.Interleaving.Play
import ExpiringStore.Rehearsal.Handler

/-!
# Desks

What the operations of a store work on: the table, the counters, the counted size, and what the
listeners have heard.  A host carries operations out and changes its desk as they ask, and in no
other way; what it fails to do it leaves undone.  Listeners that are told of something may have
wishes of their own, and a host says which of them it fulfils.

    Does listens ms d d'      the marks ms lead from the desk d to d'
    what a host does for a program is what the marks of its trail do       (Host.does)
-/

namespace ExpiringStore

variable {τ σ α : Type}

/-- What an entry in the books makes of the counters. -/
def Statistics.after (s : Statistics) : Bookkeeping τ → Statistics
  | .record counter n => s.record counter n
  | .forgetSize | .keepSize _ _ _ => s

/-- What an entry in the books makes of the counted size. -/
def SizeMemo.after (m : SizeMemo τ) : Bookkeeping τ → SizeMemo τ
  | .record _ _ => m
  | .forgetSize => ⟨m.generation + 1, none⟩
  | .keepSize generation count now =>
    if generation = m.generation then ⟨generation, some (count, now)⟩ else m

/-- What the operations of a store work on. -/
structure Desk (τ : Type) where
  table : Table τ
  statistics : Statistics
  memo : SizeMemo τ
  /-- What listeners were told, in order. -/
  heard : List (ListenerId × Event)

namespace Desk

/-- An entry in the books of the store. -/
def note (d : Desk τ) (b : Bookkeeping τ) : Desk τ :=
  { d with statistics := d.statistics.after b, memo := d.memo.after b }

@[simp] theorem note_table (d : Desk τ) (b : Bookkeeping τ) : (d.note b).table = d.table := rfl

@[simp] theorem note_statistics (d : Desk τ) (b : Bookkeeping τ) :
    (d.note b).statistics = d.statistics.after b := rfl

@[simp] theorem note_memo (d : Desk τ) (b : Bookkeeping τ) :
    (d.note b).memo = d.memo.after b := rfl

@[simp] theorem note_heard (d : Desk τ) (b : Bookkeeping τ) : (d.note b).heard = d.heard := rfl

end Desk

/-- The running store keeps its books in this way. -/
theorem Rehearsal.bookkeep_eq (s : Rehearsal.Store) (b : Bookkeeping Number) :
    Rehearsal.bookkeep s b =
      { s with statistics := s.statistics.after b, memo := s.memo.after b } := by
  cases b with
  | record counter n => rfl
  | forgetSize => rfl
  | keepSize generation count now =>
    unfold Rehearsal.bookkeep SizeMemo.after
    by_cases h : generation = s.memo.generation
    · simp [h, Statistics.after]
    · simp [h, Statistics.after]

variable [Instant τ] (listens : Desk τ → Desk τ → Prop)

/-- What an effect does to a desk, as it is answered, if those who listen do as is said. -/
def Effect.Does : (e : Effect τ) → e.Reply → Desk τ → Desk τ → Prop
  | .attempt a, .ok r, d, d' => ∃ t, a.commit d.table = .ok (r, t) ∧ d' = { d with table := t }
  | .recallSize, m, d, d' => m = d.memo ∧ d' = d
  | .bookkeep b, _, d, d' => d' = d.note b
  | .notify l e, _, d, d' => listens { d with heard := d.heard ++ [(l, e)] } d'
  | _, _, d, d' => d' = d

def Mark.Does : Mark τ → Desk τ → Desk τ → Prop
  | .committed a r, d, d' => ∃ t, a.commit d.table = .ok (r, t) ∧ d' = { d with table := t }
  | .recalled m, d, d' => m = d.memo ∧ d' = d
  | .noted b, d, d' => d' = d.note b
  | .told l e, d, d' => listens { d with heard := d.heard ++ [(l, e)] } d'
  | .read _, d, d' | .listed _, d, d' => d' = d

/-- Marks that lead from one desk to another. -/
def Does : List (Mark τ) → Desk τ → Desk τ → Prop
  | [], d, d' => d' = d
  | m :: ms, d, d' => ∃ d₁, m.Does listens d d₁ ∧ Does ms d₁ d'

variable {listens}

theorem does_append {first second : List (Mark τ)} {d d' : Desk τ} :
    Does listens (first ++ second) d d' ↔
      ∃ d₁, Does listens first d d₁ ∧ Does listens second d₁ d' := by
  induction first generalizing d with
  | nil =>
    constructor
    · intro h
      exact ⟨d, rfl, h⟩
    · rintro ⟨d₁, rfl, h⟩
      exact h
  | cons m rest ih =>
    constructor
    · rintro ⟨d₁, hm, h⟩
      obtain ⟨d₂, hrest, hsecond⟩ := ih.1 h
      exact ⟨d₂, ⟨d₁, hm, hrest⟩, hsecond⟩
    · rintro ⟨d₂, ⟨d₁, hm, hrest⟩, hsecond⟩
      exact ⟨d₁, hm, ih.2 ⟨d₂, hrest, hsecond⟩⟩

/-! ## Marks that change nothing -/

namespace Transaction

theorem commit_quiet {t t' : Table τ} {a : Transaction τ} {r : a.Reply}
    (quiet : a.isQuiet r = true) (h : a.commit t = .ok (r, t')) : t' = t := by
  obtain ⟨b, hb, rfl, hanswer⟩ := commit_ok h
  cases a with
  | probe | fetch | fetchMany | isLive | liveKeys | countLive =>
    obtain ⟨_, -, rfl⟩ := reading_ok hb
    rfl
  | writeIfAbsent k row now =>
    simp only [firstOn] at hb
    split at hb
    · cases hb
    · obtain rfl := Except.ok.inj hb
      obtain rfl : Insertion.inserted = r := Except.ok.inj hanswer
      cases quiet
    · next hkept =>
      obtain rfl := Except.ok.inj hb
      exact eq_of_insertUnlessLive hkept
  | _ => cases quiet

end Transaction

theorem Mark.Does.idle {m : Mark τ} {d d' : Desk τ} (h : m.Does listens d d')
    (idle : m.isIdle = true) :
    d' = d := by
  cases m with
  | read => exact h
  | recalled => exact h.2
  | committed a r =>
    obtain ⟨t, hcommit, rfl⟩ := h
    rw [Transaction.commit_quiet idle hcommit]
  | noted | listed | told => cases idle

theorem Does.idle {ms : List (Mark τ)} {d d' : Desk τ} (h : Does listens ms d d')
    (idle : ms.all Mark.isIdle = true) : d' = d := by
  induction ms generalizing d with
  | nil => exact h
  | cons m rest ih =>
    obtain ⟨d₁, hm, hrest⟩ := h
    obtain ⟨hfirst, hidle⟩ := Bool.and_eq_true_iff.1 (List.all_cons ▸ idle)
    obtain rfl := hm.idle hfirst
    exact ih hrest hidle

/-! ## Hosts -/

/-- Who carries out the operations of a store. -/
structure Host (τ σ : Type) [Instant τ] where
  handle : (e : Effect τ) → σ → e.Reply × σ
  desk : σ → Desk τ
  /-- What listeners may do when they are told of something. -/
  listens : Desk τ → Desk τ → Prop
  lawful (e : Effect τ) (s : σ) : e.Does listens (handle e s).1 (desk s) (desk (handle e s).2)

namespace Host

variable (h : Host τ σ)

/-- What a host does for one effect is what the mark says that it leaves, if it leaves one. -/
theorem does_mark? (e : Effect τ) (s : σ) :
    Does h.listens (e.mark? (h.handle e s).1).toList (h.desk s) (h.desk (h.handle e s).2) := by
  have hdoes := h.lawful e s
  cases e with
  | readClock =>
    cases hr : (h.handle .readClock s).1 with
    | ok now => exact ⟨_, hdoes, rfl⟩
    | error f => exact hdoes
  | attempt a =>
    cases hr : (h.handle (.attempt a) s).1 with
    | ok r =>
      rw [hr] at hdoes
      exact ⟨_, hdoes, rfl⟩
    | error f =>
      rw [hr] at hdoes
      exact hdoes
  | recallSize | bookkeep | listeners | notify => exact ⟨_, hdoes, rfl⟩
  | engine | pause | log | gate | sweeper | noteRunning => exact hdoes

/-- What a host does for a program is what the marks say that the program leaves. -/
theorem does (x : Program τ α) (s : σ) (t : Trail τ) :
    ∃ ms, (x.trailAfter h.handle s t).marks = t.marks ++ ms ∧
      Does h.listens ms (h.desk s) (h.desk (x.run h.handle s).2) := by
  induction x generalizing s t with
  | done a => exact ⟨[], (List.append_nil _).symm, rfl⟩
  | ask e next ih =>
    obtain ⟨rest, hrest, hdoes⟩ := ih (h.handle e s).1 (h.handle e s).2
      (t.after e (h.handle e s).1)
    refine ⟨_ ++ rest, ?_, does_append.2 ⟨_, h.does_mark? e s, hdoes⟩⟩
    rw [← List.append_assoc, ← t.marks_after]
    exact hrest

variable [Delay τ]

/-- What a call answers, and what it leaves. -/
def answer (c : Config τ) (call : Call) (s : σ) : Except Failure Answer × σ :=
  (ExceptT.run (call.program c)).run h.handle s

def trail (c : Config τ) (call : Call) (s : σ) : Trail τ :=
  (ExceptT.run (call.program c)).trailAfter h.handle s {}

/-- A call concludes as it is to, and does what its marks say. -/
theorem answer_concludes (c : Config τ) (call : Call) (s : σ) :
    call.Concludes c (h.trail c call s) (h.answer c call s).1 ∧
      Does h.listens (h.trail c call s).marks (h.desk s) (h.desk (h.answer c call s).2) := by
  refine ⟨(Call.concludes_program c call).run h.handle s, ?_⟩
  obtain ⟨ms, hms, hdoes⟩ := h.does (ExceptT.run (call.program c)) s {}
  have hmarks : (h.trail c call s).marks = ms := hms
  rw [hmarks]
  exact hdoes

/-- A call that asks for nothing leaves everything as it is. -/
theorem answer_of_unasked (c : Config τ) (call : Call) (s : σ)
    (hasked : (h.trail c call s).asked = false) : (h.answer c call s).2 = s := by
  unfold trail at hasked
  unfold answer
  cases hx : ExceptT.run (call.program c) with
  | done r => rfl
  | ask e next =>
    rw [hx] at hasked
    have hstill := (next (h.handle e s).1).asked_trailAfter h.handle (h.handle e s).2
      (Trail.asked_after {} e (h.handle e s).1)
    cases hstill.symm.trans hasked

end Host

/-- A host that is a clock and a desk and no more, where nothing fails that need not and nobody
listens. -/
def Host.plain : Host τ (τ × Desk τ) where
  handle
    | .recallSize, s => (s.2.memo, s)
    | .bookkeep b, s => ((), s.1, s.2.note b)
    | .notify l e, s => (none, s.1, { s.2 with heard := s.2.heard ++ [(l, e)] })
    | e, s => ((e.answer s.1 s.2.table).1, s.1, { s.2 with table := (e.answer s.1 s.2.table).2 })
  desk s := s.2
  listens d d' := d' = d
  lawful e s := by
    cases e with
    | attempt a =>
      cases hc : a.commit s.2.table with
      | ok p =>
        simp only [Effect.answer_ok hc]
        exact ⟨p.2, hc, rfl⟩
      | error f =>
        simp only [Effect.answer_error hc]
        rfl
    | recallSize => exact ⟨rfl, rfl⟩
    | engine step => cases step <;> rfl
    | _ => rfl

/-- A host that is a clock and a desk and no more, with listeners who only listen. -/
def Host.watched (ls : List ListenerId) : Host τ (τ × Desk τ) where
  handle
    | .listeners, s => (ls, s)
    | e, s => Host.plain.handle e s
  desk s := s.2
  listens d d' := d' = d
  lawful e s := by
    have hplain := Host.plain.lawful e s
    cases e with
    | listeners => rfl
    | _ => exact hplain

end ExpiringStore
