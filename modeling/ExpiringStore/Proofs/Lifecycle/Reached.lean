import ExpiringStore.Proofs.Lifecycle.Facility

/-!
# The states that are reached

In every state that is reached, whoever has a lock is the only one who has it, and whoever waits
stands outside or is making the table.  So one who saw the engine open and has not waited since sees
it open still, and only who makes the table may find it closed afterwards.

    Sound s, Step c s s'   →   Sound s'      (Sound.step)
    Reachable c s          →   Sound s       (Reachable.sound)
-/

namespace ExpiringStore

open Standing

variable {τ : Type}

/-- A caller that is not going on waits outside, or for its table. -/
def Job.Rests (job : Job τ) : Prop :=
  job.standing.stage = .outside ∨
    job.standing.stage = .opened ∧ ∃ next, job.rest = .ask (.engine .makeTable) next

namespace Facility

/-- What is true of every state that is reached. -/
structure Sound (s : Facility τ) : Prop where
  abides (i : Nat) (job : Job τ) (atI : s.jobs[i]? = some job) :
    job.rest.Abides rule (Operation.EndsAs (At .outside false) (Fails .outside false)) job.standing
  holder (i : Nat) (job : Job τ) (atI : s.jobs[i]? = some job)
    (has : job.standing.stage.hasLock = true) : (s.gates .store).holder = some i
  /-- Whoever has the lock of the table's gate has the lock of the store's gate. -/
  setting (i : Nat) (job : Job τ) (atI : s.jobs[i]? = some job)
    (sets : job.standing.setting = true) : job.standing.stage.hasLock = true
  schema (i : Nat) (held : (s.gates .schema).holder = some i) :
    ∃ job, s.jobs[i]? = some job ∧ job.standing.setting = true
  rests (i : Nat) (job : Job τ) (atI : s.jobs[i]? = some job) (idle : s.running ≠ some i) :
    job.Rests
  coherent : Coherent s.stage s.engine (s.gates .store).isOpen s.history
  /-- Whoever goes on and saw the engine open sees it open still. -/
  sees (opened : s.stage = .opened) : s.engine = true

variable {s s' : Facility τ}

theorem stage_of_running {i : Nat} {job : Job τ} (goes : s.running = some i)
    (atI : s.jobs[i]? = some job) : s.stage = job.standing.stage := by
  unfold stage
  rw [goes, Option.bind_some, atI]
  rfl

theorem stage_of_rest (rests : s.running = none) : s.stage = .outside := by
  unfold stage
  rw [rests]
  rfl

theorem stage_answered {i : Nat} {job : Job τ} (atI : s.jobs[i]? = some job) (e : Effect τ)
    (r : e.Reply) (rest : Program τ (Except Failure Answer)) :
    (s.answered i job e r rest).stage = job.standing.stage.after e r := by
  have hjob : (s.answered i job e r rest).jobs[i]? =
      some { job with rest, standing := rule.after job.standing e r } :=
    List.getElem?_set_self (List.getElem?_eq_some_iff.1 atI).1
  exact stage_of_running rfl hjob

theorem stage_arrive (errand : Errand) (rest : Program τ (Except Failure Answer)) :
    ({ s with jobs := s.jobs ++ [⟨errand, rest, {}⟩] } : Facility τ).stage = s.stage := by
  unfold stage
  cases s.running with
  | none => rfl
  | some i =>
    show ((s.jobs ++ [⟨errand, rest, {}⟩])[i]?).elim _ _ = (s.jobs[i]?).elim _ _
    by_cases hi : i < s.jobs.length
    · rw [List.getElem?_append_left hi]
    · rw [List.getElem?_eq_none (Nat.not_lt.1 hi)]
      cases hjob : (s.jobs ++ [⟨errand, rest, {}⟩])[i]? with
      | none => rfl
      | some job =>
        rcases getElem?_append_cases hjob with h' | ⟨-, rfl⟩
        · exact absurd (List.getElem?_eq_some_iff.1 h').1 hi
        · rfl

theorem sound_start : Sound ({} : Facility τ) where
  abides i job atI := by simp at atI
  holder i job atI := by simp at atI
  setting i job atI := by simp at atI
  schema i held := by cases held
  rests i job atI := by simp at atI
  coherent := by
    refine ⟨⟨fun _ => closed_nil, fun _ => rfl⟩, fun h => ?_, nofun, nofun⟩
    exact absurd h not_overtaken_nil
  sees := nofun

/-! ## One who goes on -/

section
variable {i : Nat} {job : Job τ} {e : Effect τ}
  {next : e.Reply → Program τ (Except Failure Answer)} {r : e.Reply}

theorem Sound.permitted (h : Sound s) (atI : s.jobs[i]? = some job)
    (asks : job.rest = .ask e next) : job.standing.stage.Permits job.standing.setting e := by
  have habides := h.abides i job atI
  rw [asks] at habides
  exact habides.1

/-- One who may go on sees the engine open, or makes the table. -/
theorem Sound.sees_or_makes (h : Sound s) (atI : s.jobs[i]? = some job)
    (asks : job.rest = .ask e next) (free : s.running = none ∨ s.running = some i)
    (opened : job.standing.stage = .opened) : s.engine = true ∨ e = .engine .makeTable := by
  rcases free with hnone | hgoes
  · rcases h.rests i job atI (by rw [hnone]; exact nofun) with hout | ⟨-, next', hmakes⟩
    · cases hout.symm.trans opened
    · obtain ⟨rfl, -⟩ := Program.ask.inj (asks.symm.trans hmakes)
      exact .inr rfl
  · exact .inl (h.sees ((stage_of_running hgoes atI).trans opened))

theorem Sound.coherent_at (h : Sound s) (atI : s.jobs[i]? = some job)
    (free : s.running = none ∨ s.running = some i) :
    Coherent job.standing.stage s.engine (s.gates .store).isOpen s.history := by
  rcases free with hnone | hgoes
  · have hcoherent := h.coherent
    rw [stage_of_rest hnone] at hcoherent
    refine hcoherent.resume ?_
    rcases h.rests i job atI (by rw [hnone]; exact nofun) with hout | ⟨hopened, -⟩
    · exact .inl hout
    · exact .inr hopened
  · rw [← stage_of_running hgoes atI]
    exact h.coherent

/-- No two have the lock of the store's gate after an effect. -/
theorem Sound.holder_answered (h : Sound s) (atI : s.jobs[i]? = some job)
    (asks : job.rest = .ask e next) (told : s.tells e r = true) {j : Nat} {other : Job τ}
    (atJ : (s.answered i job e r (next r)).jobs[j]? = some other)
    (has : other.standing.stage.hasLock = true) :
    ((s.answered i job e r (next r)).gates .store).holder = some j := by
  show (s.gatesAfter i e .store).holder = some j
  rcases getElem?_set_cases atJ with ⟨rfl, rfl⟩ | ⟨hj, hother⟩
  · rcases Stage.lock_cases (h.permitted atI asks) r with
      ⟨rfl, -⟩ | ⟨-, -, -, hout⟩ | ⟨hsame, hheld⟩
    · rfl
    · replace has : (job.standing.stage.after e r).hasLock = true := has
      rw [hout] at has
      cases has
    · rw [hheld]
      exact h.holder j job atI (hsame.symm.trans has)
  · have hholder := h.holder j other hother has
    rcases Stage.lock_cases (h.permitted atI asks) r with ⟨rfl, -⟩ | ⟨-, hlock, -⟩ | ⟨-, hheld⟩
    · -- The lock was free.
      simp [tells, hholder] at told
    · cases (h.holder i job atI hlock).symm.trans hholder
      exact absurd rfl hj
    · rw [hheld]
      exact hholder

theorem Sound.setting_answered (h : Sound s) (atI : s.jobs[i]? = some job)
    (asks : job.rest = .ask e next) (sets : settingAfter job.standing.setting e = true) :
    (job.standing.stage.after e r).hasLock = true := by
  rcases Stage.setting_cases (h.permitted atI asks) with ⟨rfl, hstage⟩ | ⟨rfl, -⟩ | ⟨hsame, -⟩
  · rw [hstage]
    rfl
  · cases sets
  · have hbefore := hsame.symm.trans sets
    have hlock := h.setting i job atI hbefore
    rcases Stage.lock_cases (h.permitted atI asks) r with ⟨-, hout⟩ | ⟨-, -, hfree, -⟩ | ⟨hkept, -⟩
    · rw [hout] at hlock
      cases hlock
    · cases hfree.symm.trans hbefore
    · exact hkept.trans hlock

theorem Sound.schema_answered (h : Sound s) (atI : s.jobs[i]? = some job)
    (asks : job.rest = .ask e next) {j : Nat}
    (held : ((s.answered i job e r (next r)).gates .schema).holder = some j) :
    ∃ other, (s.answered i job e r (next r)).jobs[j]? = some other ∧
      other.standing.setting = true := by
  have hset (sets : settingAfter job.standing.setting e = true) :
      ∃ other, (s.answered i job e r (next r)).jobs[i]? = some other ∧
        other.standing.setting = true :=
    ⟨_, List.getElem?_set_self (List.getElem?_eq_some_iff.1 atI).1, sets⟩
  replace held : (s.gatesAfter i e .schema).holder = some j := held
  rcases Stage.setting_cases (h.permitted atI asks) with ⟨rfl, -⟩ | ⟨rfl, -⟩ | ⟨hsame, hheld⟩
  · cases held
    exact hset rfl
  · cases held
  · rw [hheld] at held
    obtain ⟨other, hother, hsets⟩ := h.schema j held
    by_cases hj : i = j
    · subst hj
      obtain rfl := Option.some.inj (atI.symm.trans hother)
      exact hset (hsame.trans hsets)
    · exact ⟨other, (List.getElem?_set_ne hj).trans hother, hsets⟩

theorem Sound.answer (h : Sound s) (atI : s.jobs[i]? = some job) (asks : job.rest = .ask e next)
    (free : s.running = none ∨ s.running = some i) (possible : s.Answers e r) :
    Sound (s.answered i job e r (next r)) where
  abides j other atJ := by
    rcases getElem?_set_cases atJ with ⟨rfl, rfl⟩ | ⟨-, hother⟩
    · have habides := h.abides j job atI
      rw [asks] at habides
      exact habides.2 r
    · exact h.abides j other hother
  holder j other atJ has := h.holder_answered atI asks possible.1 atJ has
  setting j other atJ sets := by
    rcases getElem?_set_cases atJ with ⟨rfl, rfl⟩ | ⟨-, hother⟩
    · exact h.setting_answered atI asks sets
    · exact h.setting j other hother sets
  schema j held := h.schema_answered atI asks held
  rests j other atJ idle := by
    rcases getElem?_set_cases atJ with ⟨rfl, rfl⟩ | ⟨hj, hother⟩
    · exact absurd rfl idle
    · refine h.rests j other hother fun hgoes => ?_
      rcases free with hnone | hgoes'
      · cases hnone.symm.trans hgoes
      · cases hgoes'.symm.trans hgoes
        exact hj rfl
  coherent := by
    rw [stage_answered atI]
    have hturn := (h.coherent_at atI free).turn (Stage.turn_after (h.permitted atI asks) r) ?_
    · show Coherent _ (e.engineAfter s.engine r) (s.gatesAfter i e .store).isOpen
        (s.history ++ (e.incident? r).toList)
      rw [engineAfter_eq possible.1, isOpen_gatesAfter i (r := r)]
      exact hturn
    · intro hunbarred hopened
      refine (h.sees_or_makes atI asks free hopened).resolve_right ?_
      rintro rfl
      rcases r with f | _ | _ <;> cases hunbarred
  sees opened := by
    rw [stage_answered atI] at opened
    exact Stage.sees_after (h.permitted atI asks) possible.1 (h.sees_or_makes atI asks free) opened

/-- Nobody waits for the lock of the table's gate. -/
theorem Sound.not_awaits_schema (h : Sound s) (atI : s.jobs[i]? = some job)
    (idle : s.running ≠ some i) : job.awaits .schema = false := by
  by_contra hawaits
  obtain ⟨g, next, hasks, hg⟩ : ∃ g next, job.rest = .ask (.gate g .lock) next ∧ g = .schema := by
    unfold Job.awaits at hawaits
    split at hawaits
    · next g next hasks => exact ⟨g, next, hasks, by simpa using hawaits⟩
    · exact absurd rfl hawaits
  subst hg
  have hpermitted := h.permitted atI hasks
  rcases h.rests i job atI idle with hout | ⟨-, next', hmakes⟩
  · rw [hout] at hpermitted
    exact hpermitted
  · cases hasks.symm.trans hmakes

/-- One who waits stands outside, or makes the table: the lock of the table's gate is free for who
has the lock of the store's gate. -/
theorem Sound.rests_of_mayRest (h : Sound s) (goes : s.running = some i)
    (atI : s.jobs[i]? = some job) (rests : s.mayRest i job.rest = true) : job.Rests := by
  have habides := h.abides i job atI
  unfold Job.Rests
  cases hrest : job.rest with
  | done result =>
    rw [hrest] at habides
    cases result with
    | ok a => exact .inl habides.1
    | error f => exact .inl habides.1.1
  | ask e next =>
    rw [hrest] at rests
    replace rests : s.mayWait i e = true := rests
    rcases Stage.wait_cases (h.permitted atI hrest) rests with
      hout | ⟨hopened, rfl⟩ | ⟨hopened, hfree, ⟨j, hheld⟩ | ⟨other, hother, hawaits⟩⟩
    · exact .inl hout
    · exact .inr ⟨hopened, next, rfl⟩
    · -- Whoever has the lock of the table's gate would have that of the store's gate as well.
      obtain ⟨other, hother, hsets⟩ := h.schema j hheld
      have hlock := h.holder j other hother (h.setting j other hother hsets)
      cases (h.holder i job atI (by rw [hopened]; rfl)).symm.trans hlock
      obtain rfl := Option.some.inj (atI.symm.trans hother)
      cases hfree.symm.trans hsets
    · obtain ⟨j, hj, hat⟩ := List.mem_eraseIdx_iff_getElem?.1 hother
      have hidle : s.running ≠ some j := by
        rw [goes]
        exact fun heq => hj (Option.some.inj heq).symm
      cases hawaits.symm.trans (h.not_awaits_schema hat hidle)

end

/-! ## Runs -/

theorem Sound.leave (h : Sound s) {i : Nat} {job : Job τ} (goes : s.running = some i)
    (atI : s.jobs[i]? = some job) (rests : s.mayRest i job.rest = true) :
    Sound { s with running := none } where
  abides := h.abides
  holder := h.holder
  setting := h.setting
  schema := h.schema
  rests j other atJ _ := by
    by_cases hj : i = j
    · subst hj
      obtain rfl := Option.some.inj (atI.symm.trans atJ)
      exact h.rests_of_mayRest goes atI rests
    · exact h.rests j other atJ fun hgoes => hj (Option.some.inj (goes.symm.trans hgoes))
  coherent := by
    have hcoherent := h.coherent
    rw [stage_of_running goes atI] at hcoherent
    refine hcoherent.rest ?_
    rcases h.rests_of_mayRest goes atI rests with hout | ⟨hopened, -⟩
    · exact .inl hout
    · exact .inr hopened
  sees opened := nomatch opened

variable [Instant τ] [Delay τ] {c : Config τ}

/-- Every errand begins outside and comes back there. -/
theorem abides_program (errand : Errand) : (ExceptT.run (errand.program c)).Abides rule
    (Operation.EndsAs (At .outside false) (Fails .outside false)) {} := by
  cases errand with
  | startup => exact (Operation.abides_map _ _).2 (Operation.abides_startup c)
  | shutdown => exact (Operation.abides_map _ _).2 (Operation.abides_shutdown c)
  | call asked => exact Call.plain_program c asked false

theorem Sound.arrive (h : Sound s) (errand : Errand) :
    Sound { s with jobs := s.jobs ++ [⟨errand, ExceptT.run (errand.program c), {}⟩] } where
  abides i job atI := by
    rcases getElem?_append_cases atI with h' | ⟨-, rfl⟩
    · exact h.abides i job h'
    · exact abides_program errand
  holder i job atI has := by
    rcases getElem?_append_cases atI with h' | ⟨-, rfl⟩
    · exact h.holder i job h' has
    · cases has
  setting i job atI sets := by
    rcases getElem?_append_cases atI with h' | ⟨-, rfl⟩
    · exact h.setting i job h' sets
    · cases sets
  schema i held := by
    obtain ⟨job, atI, hsets⟩ := h.schema i held
    have hi := (List.getElem?_eq_some_iff.1 atI).1
    exact ⟨job, (List.getElem?_append_left hi).trans atI, hsets⟩
  rests i job atI idle := by
    rcases getElem?_append_cases atI with h' | ⟨-, rfl⟩
    · exact h.rests i job h' idle
    · exact .inl rfl
  coherent := by
    rw [stage_arrive]
    exact h.coherent
  sees opened := by
    rw [stage_arrive] at opened
    exact h.sees opened

theorem Sound.step (h : Sound s) (hstep : Step c s s') : Sound s' := by
  cases hstep with
  | arrive errand => exact h.arrive errand
  | answer i job e next r atI asks free possible => exact h.answer atI asks free possible
  | leave i job goes atI rests => exact h.leave goes atI rests

theorem Sound.steps (h : Sound s) (hsteps : Steps c s s') : Sound s' := by
  induction hsteps with
  | refl => exact h
  | tail _ hstep ih => exact ih.step hstep

theorem Reachable.sound (h : Reachable c s) : Sound s := sound_start.steps h

end Facility

end ExpiringStore
