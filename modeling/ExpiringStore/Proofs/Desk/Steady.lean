import ExpiringStore.Proofs.Desk.Hearing
import ExpiringStore.Proofs.Desk.Station

/-!
# Steady stations

A station where nothing fails that need not, and where the listeners stay as they are.  What a call
does there, and what it answers, is a matter of the desk, of the clock and of who listens: either
the call has its account, or the table has refused what it asks for, and then nothing is changed.

    Settled c call now ls d d' r     what a call may do to a desk d and answer
    each c calls s                   one call after another
    a steady station settles its calls one after another                      (settledInTurn)
-/

namespace ExpiringStore

variable {τ σ α : Type}

/-! ## What marks are of -/

/-- A mark that is left while the clock stands still and the listeners stay as they are. -/
def Mark.IsOf (now : τ) (ls : List ListenerId) : Mark τ → Prop
  | .read n => n = now
  | .listed ls' => ls' = ls
  | _ => True

section
variable [Instant τ] {listens listens' : Desk τ → Desk τ → Prop} {d d' : Desk τ}

/-- What is done where listeners do as is said is done where they may do more. -/
theorem Does.mono (h : ∀ d d', listens d d' → listens' d d') {ms : List (Mark τ)}
    (hdoes : Does listens ms d d') : Does listens' ms d d' := by
  induction ms generalizing d with
  | nil => exact hdoes
  | cons m rest ih =>
    obtain ⟨d₁, hm, hrest⟩ := hdoes
    refine ⟨d₁, ?_, ih hrest⟩
    cases m with
    | told l e => exact h _ _ hm
    | _ => exact hm

end

/-- What holds of surroundings whatever they answer holds of them after a program. -/
theorem Program.kind_run {handle : (e : Effect τ) → σ → e.Reply × σ} {kind : σ → Prop}
    (stays : ∀ e s, kind s → kind (handle e s).2) (x : Program τ α) {s : σ} (hs : kind s) :
    kind (x.run handle s).2 := by
  induction x generalizing s with
  | done a => exact hs
  | ask e next ih => exact ih _ (stays e s hs)

/-! ## Steady stations -/

/-- A station where only that fails which has to, and whose listeners stay as they are.  As at an
obliging one, no call goes beyond the limits of the engine. -/
structure Station.Steady [Instant τ] (h : Station τ σ) (audience : σ → List ListenerId) :
    Prop where
  lists (s : σ) : (h.handle .listeners s).1 = audience s
  stays (e : Effect τ) (s : σ) : audience (h.handle e s).2 = audience s
  attempts (a : Transaction τ) (s : σ) :
    (h.handle (.attempt a) s).1 = (a.commit (h.desk s).table).map (·.1)

/-- A trouble with a transaction that the table has refused, as long as nothing was changed. -/
def Trouble.IsRefusal [Instant τ] (d : Desk τ) (ms : List (Mark τ)) : Trouble τ → Prop
  | .attempt a f => ms.all Mark.isIdle = true → a.commit d.table = .error f
  | _ => False

section
variable [Instant τ]

/-- What a call may do to a desk, and answer, while the clock stands still, nothing fails that need
not, and these listen. -/
inductive Settled (c : Config τ) (call : Call) (now : τ) (ls : List ListenerId) (d d' : Desk τ) :
    Except Failure Answer → Prop
  | accounts {t : Trail τ} {r : Except Failure Answer} (account : call.Accounts c t r)
      (marks : ∀ m ∈ t.marks, m.IsOf now ls) (does : Does (fun d d' => d' = d) t.marks d d') :
      Settled c call now ls d d' r
  | refused {f g : Failure} {deeds : List (Deed τ)} {a : Transaction τ}
      (made : call.Makes c deeds a) (read : ∀ n, .read n ∈ deeds → n = now)
      (refuses : a.commit d.table = .error g) (same : d' = d) :
      Settled c call now ls d d' (.error f)

/-- What calls may do one after another. -/
inductive SettledInTurn (c : Config τ) (now : τ) (ls : List ListenerId) :
    List Call → Desk τ → Desk τ → List (Except Failure Answer) → Prop
  | nil (d : Desk τ) : SettledInTurn c now ls [] d d []
  | cons {call : Call} {calls : List Call} {d d₁ d' : Desk τ} {r : Except Failure Answer}
      {rs : List (Except Failure Answer)} (first : Settled c call now ls d d₁ r)
      (rest : SettledInTurn c now ls calls d₁ d' rs) :
      SettledInTurn c now ls (call :: calls) d d' (r :: rs)

end

namespace Station

/-- One call after another, and what they answer. -/
def each [Instant τ] [Delay τ] (h : Station τ σ) (c : Config τ) :
    List Call → σ → List (Except Failure Answer) × σ
  | [], s => ([], s)
  | call :: rest, s =>
    let (r, s) := h.answer c call s
    let (rs, s) := h.each c rest s
    (r :: rs, s)

namespace Steady

variable [Instant τ] {h : Station τ σ} {audience : σ → List ListenerId}

theorem isOf_mark? (steady : h.Steady audience) {e : Effect τ} {s : σ} {m : Mark τ}
    (hm : e.mark? (h.handle e s).1 = some m) : m.IsOf (h.clock s) (audience s) := by
  cases e with
  | readClock =>
    rw [h.reads s] at hm
    obtain rfl := Option.some.inj hm
    rfl
  | listeners =>
    obtain rfl := Option.some.inj hm
    exact steady.lists s
  | attempt a =>
    cases hr : (h.handle (.attempt a) s).1 with
    | ok r =>
      rw [hr] at hm
      obtain rfl := Option.some.inj hm
      trivial
    | error f =>
      rw [hr] at hm
      cases hm
  | recallSize | bookkeep | notify =>
    obtain rfl := Option.some.inj hm
    trivial
  | engine | pause | log | gate | sweeper | noteRunning => cases hm

/-- The clock and the listeners stay as they are whatever is asked for. -/
theorem stays_kind (steady : h.Steady audience) {now : τ} {ls : List ListenerId} (e : Effect τ)
    (s : σ) (hs : h.clock s = now ∧ audience s = ls) :
    h.clock (h.handle e s).2 = now ∧ audience (h.handle e s).2 = ls :=
  ⟨(h.clock_handle e s).trans hs.1, (steady.stays e s).trans hs.2⟩

theorem isOf_trailAfter (steady : h.Steady audience) (x : Program τ α) (s : σ) :
    ∀ m ∈ (x.trailAfter h.handle s {}).marks, m.IsOf (h.clock s) (audience s) := by
  refine Program.forall_mark_trailAfter
    (fun s' => h.clock s' = h.clock s ∧ audience s' = audience s) steady.stays_kind
    (fun e s' hs m hm => ?_) x ⟨rfl, rfl⟩ fun m mem => ?_
  · rw [← hs.1, ← hs.2]
    exact steady.isOf_mark? hm
  · cases mem

/-- The only trouble at a steady station is with what the table refuses. -/
theorem isRefusal_trailAfter (steady : h.Steady audience) (x : Program τ α) {d : Desk τ} {s : σ}
    {t : Trail τ} (reached : Does h.listens t.marks d (h.desk s))
    (before : ∀ y ∈ t.troubles, y.IsRefusal d t.marks) :
    ∀ y ∈ (x.trailAfter h.handle s t).troubles,
      y.IsRefusal d (x.trailAfter h.handle s t).marks := by
  induction x generalizing s t with
  | done a => exact before
  | ask e next ih =>
    have hmarks := t.marks_after e (h.handle e s).1
    refine ih _ ?_ fun y mem => ?_
    · rw [hmarks]
      exact does_append.2 ⟨_, reached, h.does_mark? e s⟩
    rw [Trail.troubles_after] at mem
    rw [hmarks]
    rcases List.mem_append.1 mem with mem | mem
    · have hy := before y mem
      cases y with
      | attempt a f =>
        intro idle
        rw [List.all_append] at idle
        exact hy (Bool.and_eq_true_iff.1 idle).1
      | clock | engine => exact hy
    · have hy := Option.mem_toList.1 mem
      cases e with
      | attempt a =>
        have hattempt := steady.attempts a s
        cases hr : (h.handle (.attempt a) s).1 with
        | ok r =>
          rw [hr] at hy
          cases hy
        | error f =>
          rw [hr] at hy hattempt
          obtain rfl := Option.some.inj hy
          -- Idle marks have led nowhere, so what was refused was refused by the first desk.
          intro idle
          rw [List.all_append] at idle
          rw [← reached.idle (Bool.and_eq_true_iff.1 idle).1]
          cases hcommit : a.commit (h.desk s).table with
          | ok p =>
            rw [hcommit] at hattempt
            cases hattempt
          | error g =>
            rw [hcommit] at hattempt
            exact congrArg _ (Except.error.inj hattempt).symm
      | readClock =>
        rw [h.reads s] at hy
        cases hy
      | engine step =>
        replace hy : (if step.succeeded (h.handle (.engine step) s).1 then none
          else some (.engine (step.failure? _))) = some y := hy
        rw [if_pos (h.succeeds step s)] at hy
        cases hy
      | recallSize | bookkeep | listeners | notify | pause | log | gate | sweeper | noteRunning =>
        cases hy

variable [Delay τ]

/-- A call at a steady station has its account, or it ends with what is reported of a transaction
that the table has refused. -/
theorem concluded (steady : h.Steady audience) (c : Config τ) (call : Call) (s : σ) :
    call.Accounts c (h.trail c call s) (h.answer c call s).1 ∨
      ∃ (f g : Failure) (deeds : List (Deed τ)) (a : Transaction τ),
        (h.answer c call s).1 = .error f ∧ h.desk (h.answer c call s).2 = h.desk s ∧
        call.Makes c deeds a ∧ (∀ n, .read n ∈ deeds → n = h.clock s) ∧
        a.commit (h.desk s).table = .error g ∧ c.Reports g f := by
  obtain ⟨hends, hdoes⟩ := h.answer_concludes c call s
  have hmarks := steady.isOf_trailAfter (ExceptT.run (call.program c)) s
  have htroubles : ∀ y ∈ (h.trail c call s).troubles,
      y.IsRefusal (h.desk s) (h.trail c call s).marks :=
    steady.isRefusal_trailAfter (ExceptT.run (call.program c)) (t := {}) rfl
      fun y mem => nomatch mem
  rcases hends with ⟨f, hf, idle, broken⟩ | haccounts
  · cases broken with
    | clock met => cases htroubles _ met
    | engine met own => cases htroubles _ met
    | attempt met made reported strict =>
      refine .inr ⟨f, _, _, _, hf, hdoes.idle idle, made, fun n mem => ?_, htroubles _ met idle,
        reported⟩
      obtain ⟨m, hm, hdeed⟩ := List.mem_filterMap.1 mem
      cases m with
      | read n' =>
        obtain rfl := Deed.read.inj (Option.some.inj hdeed)
        exact hmarks _ hm
      | committed => cases Option.some.inj hdeed
      | recalled | noted | listed | told => cases hdeed
  · exact .inl haccounts

/-- A call at a steady station is settled by the desk, the clock and the listeners. -/
theorem settled (steady : h.Steady audience) (c : Config τ) (call : Call) (s : σ) :
    Settled c call (h.clock s) (audience s) (h.desk s) (h.desk (h.answer c call s).2)
      (h.answer c call s).1 := by
  rcases steady.concluded c call s with
    haccounts | ⟨f, g, deeds, a, hf, same, made, read, refuses, -⟩
  · exact .accounts haccounts (steady.isOf_trailAfter (ExceptT.run (call.program c)) s)
      ((h.answer_concludes c call s).2.mono h.silent)
  · rw [hf]
    exact .refused made read refuses same

theorem settledInTurn (steady : h.Steady audience) (c : Config τ) (calls : List Call) (s : σ) :
    SettledInTurn c (h.clock s) (audience s) calls (h.desk s) (h.desk (h.each c calls s).2)
      (h.each c calls s).1 := by
  induction calls generalizing s with
  | nil => exact .nil _
  | cons call rest ih =>
    have hstays : h.clock (h.answer c call s).2 = h.clock s ∧
        audience (h.answer c call s).2 = audience s :=
      Program.kind_run steady.stays_kind (ExceptT.run (call.program c)) ⟨rfl, rfl⟩
    refine .cons (steady.settled c call s) ?_
    rw [← hstays.1, ← hstays.2]
    exact ih _

end Steady

/-! ## Attended stations -/

theorem clock_reset (now : τ) (s : τ × Desk τ) : ((now, s.2) : τ × Desk τ).1 = now := rfl

theorem clock_watched [Instant τ] (ls : List ListenerId) (e : Effect τ) (s : τ × Desk τ) :
    ((Host.watched ls).handle e s).2.1 = s.1 := by
  cases e <;> rfl

theorem succeeds_watched [Instant τ] (ls : List ListenerId) (step : EngineStep) (s : τ × Desk τ) :
    step.succeeded ((Host.watched ls).handle (.engine step) s).1 = true := by
  cases step <;> rfl

/-- A station that is a clock and a desk and no more, with listeners who only listen. -/
def attended [Instant τ] (ls : List ListenerId) : Station τ (τ × Desk τ) where
  toHost := Host.watched ls
  clock s := s.1
  advance now s := (now, s.2)
  desk_advance _ _ := rfl
  clock_advance := clock_reset
  clock_handle := clock_watched ls
  reads _ := rfl
  succeeds := succeeds_watched ls
  silent _ _ h := h

theorem steady_attended [Instant τ] (ls : List ListenerId) :
    (attended (τ := τ) ls).Steady fun _ => ls where
  lists _ := rfl
  stays _ _ := rfl
  attempts a s := by
    show ((Effect.attempt a).answer s.1 s.2.table).1 = (a.commit s.2.table).map (·.1)
    cases hc : a.commit s.2.table with
    | ok p => rw [Effect.answer_ok hc]; rfl
    | error f => rw [Effect.answer_error hc]; rfl

end Station

end ExpiringStore
