import ExpiringStore.Proofs.Counting.Careful
import ExpiringStore.Proofs.Program.Asks
import ExpiringStore.Proofs.Program.Attempts

/-!
# Premises

A store on its premises is alone with its database, and its clock does not go back.  While the
engine is open the table changes only as the store asks for it; when the engine is let go, a table
in memory is gone with its rows, and one in a file stays.  A table that is not there counts as an
empty one.

Whatever a store does on its premises, it keeps its counted size up, as long as it does not let the
engine go; and when it does, the counted size stays as it was.

    tends x                  wherever x is carried out, the counted size is kept up
    tends (x >>= f)          ←   tends x and every tends (f a)                       (tends_bind)
    tends (call.program c)                                                           (tends_call)
    shutdown                 empties the table, or leaves it; the counted size stays
                                                                                 (sheds_shutdown)
-/

namespace ExpiringStore

variable {τ σ α β : Type}

/-- Where a store is alone with its database. -/
structure Premises (τ σ : Type) [MonotoneInstant τ] where
  handle : (e : Effect τ) → σ → e.Reply × σ
  desk : σ → Desk τ
  /-- The clock has shown nothing later. -/
  latest : σ → τ
  /-- Does the table outlive the engine? -/
  lasting : Bool
  lawful (e : Effect τ) (s : σ) (keeps : e.keepsEngine = true) :
    e.Does (fun d d' => d' = d) (handle e s).1 (desk s) (desk (handle e s).2)
  release (s : σ) : desk (handle (.engine .release) s).2 =
    if lasting then desk s else { desk s with table := .empty }
  latest_le (e : Effect τ) (s : σ) : latest s ≤ latest (handle e s).2
  reads (s : σ) (now : τ) (h : (handle .readClock s).1 = .ok now) :
    latest s ≤ now ∧ now ≤ latest (handle .readClock s).2

namespace Premises

variable [MonotoneInstant τ] (P : Premises τ σ)

def carry (x : Operation τ α) (s : σ) : Except Failure α × σ := (ExceptT.run x).run P.handle s

/-- Nothing on the desk is dated later than what the clock has shown. -/
def Dated (s : σ) : Prop := (P.desk s).Dated (P.latest s)

/-- What is so of the premises after something has been done there. -/
structure Keeps (s s' : σ) : Prop where
  dated : P.Dated s → P.Dated s'
  upkeep (dated : P.Dated s) : (P.desk s).Upkeep (P.desk s')

variable {P}

theorem Keeps.refl (s : σ) : P.Keeps s s := ⟨id, fun _ => .refl _⟩

theorem Keeps.trans {s s' s'' : σ} (h : P.Keeps s s') (h' : P.Keeps s' s'') : P.Keeps s s'' where
  dated := h'.dated ∘ h.dated
  upkeep dated := (h.upkeep dated).trans (h'.upkeep (h.dated dated))

/-- What leaves the table and the counted size as they are. -/
theorem Keeps.same {s s' : σ} (table : (P.desk s').table = (P.desk s).table)
    (memo : (P.desk s').memo = (P.desk s).memo) (later : P.latest s ≤ P.latest s') :
    P.Keeps s s' where
  dated dated := (dated.congr table memo).mono later
  upkeep _ := .same table memo

variable (P)

/-- Wherever an operation is carried out, the counted size is kept up. -/
def Tends (x : Operation τ α) : Prop := ∀ s, P.Keeps s (P.carry x s).2

variable {P}

theorem carry_bind (x : Operation τ α) (f : α → Operation τ β) (s : σ) :
    P.carry (x >>= f) s =
      P.carry (Operation.ofExcept (P.carry x s).1 >>= f) (P.carry x s).2 :=
  Program.run_bind P.handle (ExceptT.run x) (ExceptT.bindCont f) s

theorem carry_tryCatch (x : Operation τ α) (f : Failure → Operation τ α) (s : σ) :
    P.carry (tryCatch x f) s =
      P.carry (tryCatch (Operation.ofExcept (P.carry x s).1) f) (P.carry x s).2 :=
  Program.run_bind P.handle (ExceptT.run x) _ s

theorem carry_map (g : α → β) (x : Operation τ α) (s : σ) :
    P.carry (g <$> x) s = ((P.carry x s).1.map g, (P.carry x s).2) := by
  rw [map_eq_pure_bind, carry_bind]
  cases (P.carry x s).1 <;> rfl

theorem tends_done (a : α) : P.Tends (pure a : Operation τ α) := fun s => .refl s

theorem tends_throw (failure : Failure) : P.Tends (throw failure : Operation τ α) :=
  fun s => .refl s

theorem tends_bind {x : Operation τ α} {f : α → Operation τ β} (hx : P.Tends x)
    (hf : ∀ a, P.Tends (f a)) : P.Tends (x >>= f) := by
  intro s
  rw [carry_bind]
  refine (hx s).trans ?_
  cases (P.carry x s).1 with
  | ok a => exact hf a _
  | error failure => exact tends_throw failure _

theorem tends_tryCatch {x : Operation τ α} {f : Failure → Operation τ α} (hx : P.Tends x)
    (hf : ∀ failure, P.Tends (f failure)) : P.Tends (tryCatch x f) := by
  intro s
  rw [carry_tryCatch]
  refine (hx s).trans ?_
  cases (P.carry x s).1 with
  | ok a => exact tends_done a _
  | error failure => exact hf failure _

theorem tends_map_iff {g : α → β} {x : Operation τ α} : P.Tends (g <$> x) ↔ P.Tends x :=
  forall_congr' fun s => by rw [carry_map]

/-! ## Formalities -/

/-- What holds from effect to effect holds of what is carried out. -/
theorem carry_of_asks {R : σ → σ → Prop} (refl : ∀ s, R s s)
    (trans : ∀ {s s' s''}, R s s' → R s' s'' → R s s'') {x : Operation τ α}
    (h : x.Asks fun e => ∀ s, R s (P.handle e s).2) (s : σ) : R s (P.carry x s).2 := by
  suffices hall : ∀ (y : Program τ (Except Failure α)) (s : σ), y.Abides (Rule.only _) _ () →
      R s (y.run P.handle s).2 from hall _ s h
  intro y s hy
  induction y generalizing s with
  | done r => exact refl s
  | ask e next ih => exact trans (hy.1 s) (ih _ _ (hy.2 _))

theorem tends_of_asks {x : Operation τ α} (h : x.Asks fun e => ∀ s, P.Keeps s (P.handle e s).2) :
    P.Tends x := carry_of_asks .refl .trans h

theorem desk_formal {e : Effect τ} (formal : e.isFormal = true) (s : σ) :
    P.desk (P.handle e s).2 = P.desk s := by
  have hdoes := P.lawful e s (Effect.keepsEngine_of_isFormal formal)
  cases e with
  | log | gate | noteRunning | sweeper | engine => exact hdoes
  | readClock | attempt | pause | recallSize | bookkeep | listeners | notify => cases formal

/-- Formalities keep the counted size up. -/
theorem keeps_formal (e : Effect τ) (formal : e.isFormal = true) (s : σ) :
    P.Keeps s (P.handle e s).2 :=
  .same (by rw [desk_formal formal]) (by rw [desk_formal formal]) (P.latest_le e s)

theorem tends_startup (c : Config τ) : P.Tends (Operation.startup c) :=
  tends_of_asks (Operation.asks_startup keeps_formal c)

theorem tends_tableExists : P.Tends (Operation.tableExists) :=
  tends_of_asks (Operation.asks_tableExists keeps_formal)

/-! ## Shutdowns -/

/-- The desk is as it was, or an engine of the store's own is gone, and all rows with it. -/
inductive Sheds (P : Premises τ σ) (c : Config τ) (s s' : σ) : Prop
  | kept (later : P.latest s ≤ P.latest s') (desk : P.desk s' = P.desk s)
  | emptied (owns : c.ownsDatabase = true) (brief : P.lasting = false)
      (later : P.latest s ≤ P.latest s') (desk : P.desk s' = { P.desk s with table := .empty })

theorem Sheds.trans {c : Config τ} {s s' s'' : σ} (h : P.Sheds c s s') (h' : P.Sheds c s' s'') :
    P.Sheds c s s'' := by
  cases h with
  | kept later desk =>
    cases h' with
    | kept later' desk' => exact .kept (later.trans later') (desk'.trans desk)
    | emptied owns brief later' desk' =>
      exact .emptied owns brief (later.trans later') (by rw [desk', desk])
  | emptied owns brief later desk =>
    cases h' with
    | kept later' desk' => exact .emptied owns brief (later.trans later') (desk'.trans desk)
    | emptied _ _ later' desk' =>
      exact .emptied owns brief (later.trans later') (by rw [desk', desk])

theorem sheds_release (c : Config τ) (owns : c.ownsDatabase = true) (s : σ) :
    P.Sheds c s (P.handle (.engine .release) s).2 := by
  have hlater := P.latest_le (.engine .release) s
  have hdesk := P.release s
  cases hlasting : P.lasting with
  | true => exact .kept hlater (by rw [hdesk, if_pos hlasting])
  | false => exact .emptied owns hlasting hlater (by rw [hdesk, if_neg (by simp [hlasting])])

/-- A shutdown leaves the desk as it is, or takes the rows away with the engine. -/
theorem sheds_shutdown (c : Config τ) (s : σ) :
    P.Sheds c s (P.carry (Operation.shutdown c) s).2 :=
  carry_of_asks (fun _ => .kept le_rfl rfl) .trans (Operation.asks_shutdown
    (fun e formal s => .kept (P.latest_le e s) (desk_formal formal s)) c (sheds_release c)) s

/-! ## Calls -/

variable (P)

/-- The host of these premises, who does not let the engine go. -/
def host : Host τ σ where
  handle
    | .engine .release, s => ((), s)
    | e, s => P.handle e s
  desk := P.desk
  listens d d' := d' = d
  lawful e s := by
    cases e with
    | engine step =>
      cases step with
      | release => rfl
      | _ => exact P.lawful _ s rfl
    | _ => exact P.lawful _ s rfl

variable {P}

theorem handle_host {e : Effect τ} (keeps : e.keepsEngine = true) (s : σ) :
    P.host.handle e s = P.handle e s := by
  cases e with
  | engine step =>
    cases step with
    | release => cases keeps
    | _ => rfl
  | _ => rfl

/-- The readings of those who keep the engine lie between what the clock has shown before and
after. -/
theorem readings_host (x : Program τ α) (s : σ) (t : Trail τ) :
    P.latest s ≤ P.latest (x.run P.host.handle s).2 ∧
      ∀ now, .read now ∈ (x.trailAfter P.host.handle s t).marks → .read now ∈ t.marks ∨
        P.latest s ≤ now ∧ now ≤ P.latest (x.run P.host.handle s).2 := by
  induction x generalizing s t with
  | done a => exact ⟨le_rfl, fun now mem => .inl mem⟩
  | ask e next ih =>
    obtain ⟨hlater, hreads⟩ := ih (P.host.handle e s).1 (P.host.handle e s).2
      (t.after e (P.host.handle e s).1)
    have hfirst : P.latest s ≤ P.latest (P.host.handle e s).2 := by
      cases hkeeps : e.keepsEngine with
      | true => exact handle_host hkeeps s ▸ P.latest_le e s
      | false =>
        cases e with
        | engine step =>
          cases step with
          | release => exact le_rfl
          | _ => cases hkeeps
        | _ => cases hkeeps
    refine ⟨hfirst.trans hlater, fun now mem => ?_⟩
    rcases hreads now mem with mem | ⟨hlo, hhi⟩
    · rw [Trail.marks_after] at mem
      rcases List.mem_append.1 mem with mem | mem
      · exact .inl mem
      · cases e with
        | readClock =>
          cases hr : (P.host.handle .readClock s).1 with
          | error f =>
            rw [hr] at mem
            cases mem
          | ok n =>
            rw [hr] at mem
            obtain rfl := Mark.read.inj (List.mem_singleton.1 mem)
            obtain ⟨hlo, hhi⟩ := P.reads s now hr
            exact .inr ⟨hlo, hhi.trans hlater⟩
        | attempt a =>
          cases hr : (P.host.handle (.attempt a) s).1 with
          | error f =>
            rw [hr] at mem
            cases mem
          | ok r =>
            rw [hr] at mem
            cases List.mem_singleton.1 mem
        | recallSize | bookkeep | listeners | notify => cases List.mem_singleton.1 mem
        | pause | log | gate | engine | sweeper | noteRunning => cases mem
    · exact .inr ⟨hfirst.trans hlo, hhi⟩

variable [Delay τ] (c : Config τ) (call : Call) (s : σ)

/-- A call does the same whether or not there is one who lets the engine go. -/
theorem carry_call : P.carry (call.program c) s = P.host.answer c call s := by
  suffices hall : ∀ (y : Program τ (Except Failure Answer)) (s : σ),
      y.Abides (Rule.only fun e => e.keepsEngine = true) _ () →
        y.run P.handle s = y.run P.host.handle s from hall _ s (call.asks_program c)
  intro y s hy
  induction y generalizing s with
  | done r => rfl
  | ask e next ih =>
    show (next (P.handle e s).1).run P.handle (P.handle e s).2 = _
    rw [← handle_host hy.1 s]
    exact ih _ _ (hy.2 _)

theorem careful_call : Careful (P.latest s) (P.latest (P.carry (call.program c) s).2)
    (P.host.trail c call s).marks := by
  rw [carry_call]
  refine (P.host.answer_concludes c call s).1.careful fun now mem => ?_
  exact ((readings_host _ s {}).2 now mem).resolve_left nofun

theorem tends_call : P.Tends (call.program c) := by
  intro s
  have hlater := (readings_host (P := P) (ExceptT.run (call.program c)) s {}).1
  have hdoes := (P.host.answer_concludes c call s).2
  have hcareful := careful_call (P := P) c call s
  rw [carry_call] at hcareful ⊢
  have hupkeep (dated : P.Dated s) := hcareful.upkeep (fun _ _ h => h) hdoes hlater dated
  exact ⟨fun dated => (hupkeep dated).1, fun dated => (hupkeep dated).2⟩

end Premises

end ExpiringStore
