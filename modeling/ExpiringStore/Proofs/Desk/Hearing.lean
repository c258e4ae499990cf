import ExpiringStore.Proofs.Desk.Basic

/-!
# What listeners hear

Where listeners leave the desk alone, telling them of events does no more than that they have heard
of them.  Those who are told of an event are those who were listed for it.

    hearings ms                            what the marks ms tell, and whom
    announced es ms, d leads to d' by ms   →   d' is d, and hearings ms were heard besides
                                                                               (Does.announced)
-/

namespace ExpiringStore

variable {τ : Type}

/-- What a mark tells a listener, if it tells one something. -/
def Mark.hearing? : Mark τ → Option (ListenerId × Event)
  | .told l e => some (l, e)
  | _ => none

/-- What marks tell, in order. -/
def hearings (ms : List (Mark τ)) : List (ListenerId × Event) := ms.filterMap Mark.hearing?

theorem hearings_append (ms ms' : List (Mark τ)) :
    hearings (ms ++ ms') = hearings ms ++ hearings ms' := List.filterMap_append

theorem hearings_told (ls : List ListenerId) (e : Event) :
    hearings (ls.map (.told · e) : List (Mark τ)) = ls.map (·, e) := by
  unfold hearings
  rw [List.filterMap_map]
  exact congrFun List.filterMap_eq_map ls

theorem hearings_cons (e : Event) (ls : List ListenerId) (ms : List (Mark τ)) :
    hearings (.listed ls :: ls.map (.told · e) ++ ms) = ls.map (·, e) ++ hearings ms := by
  rw [hearings_append]
  exact congrArg (· ++ hearings ms) (hearings_told ls e)

/-- Where the same listeners are listed each time, each of them hears of each event. -/
theorem hearings_announced {es : List Event} {ms : List (Mark τ)} (h : Announced es ms)
    {ls : List ListenerId} (listed : ∀ ls', .listed ls' ∈ ms → ls' = ls) :
    hearings ms = es.flatMap fun e => ls.map (·, e) := by
  induction h with
  | nil => rfl
  | @cons e ls' es ms _ ih =>
    obtain rfl := listed ls' (List.mem_append_left _ List.mem_cons_self)
    rw [hearings_cons, List.flatMap_cons, ih fun l mem => listed l (List.mem_append_right _ mem)]

section
variable [Instant τ] {listens : Desk τ → Desk τ → Prop} {d d' : Desk τ}

/-- Listeners that leave the desk alone are told of an event. -/
theorem Does.told (silent : ∀ d d', listens d d' → d' = d) {ls : List ListenerId} {e : Event}
    (h : Does listens (ls.map (.told · e)) d d') :
    d' = { d with heard := d.heard ++ ls.map (·, e) } := by
  induction ls generalizing d with
  | nil =>
    obtain rfl : d' = d := h
    rw [List.map_nil, List.append_nil]
  | cons l rest ih =>
    obtain ⟨d₁, hdoes, hmore⟩ := h
    obtain rfl := silent _ _ hdoes
    rw [ih hmore, List.map_cons]
    simp

/-- Where listeners leave the desk alone, what they have heard is all that changes. -/
theorem Does.announced (silent : ∀ d d', listens d d' → d' = d) {es : List Event}
    {ms : List (Mark τ)} (announced : Announced es ms) (h : Does listens ms d d') :
    d' = { d with heard := d.heard ++ hearings ms } := by
  induction announced generalizing d with
  | nil =>
    obtain rfl : d' = d := h
    exact congrArg (fun heard => { d' with heard }) (List.append_nil _).symm
  | @cons e ls es ms _ ih =>
    obtain ⟨d₁, ⟨d₀, hlisted, htold⟩, hrest⟩ := does_append.1 h
    obtain rfl : d₀ = d := hlisted
    obtain rfl := htold.told silent
    rw [ih hrest, hearings_cons, ← List.append_assoc]

/-- A mark of a step that concerns neither the table nor the listeners. -/
def Mark.isClerical : Mark τ → Bool
  | .read _ | .recalled _ | .noted _ => true
  | _ => false

theorem Does.clerical {ms : List (Mark τ)} (h : Does listens ms d d')
    (clerical : ms.all Mark.isClerical = true) : d'.table = d.table ∧ d'.heard = d.heard := by
  induction ms generalizing d with
  | nil =>
    obtain rfl : d' = d := h
    exact ⟨rfl, rfl⟩
  | cons m rest ih =>
    obtain ⟨hm, hrest⟩ := Bool.and_eq_true_iff.1 (List.all_cons ▸ clerical)
    obtain ⟨d₁, hdoes, hmore⟩ := h
    obtain ⟨htable, hheard⟩ := ih hmore hrest
    cases m with
    | read now =>
      obtain rfl : d₁ = d := hdoes
      exact ⟨htable, hheard⟩
    | recalled memo =>
      obtain rfl : d₁ = d := hdoes.2
      exact ⟨htable, hheard⟩
    | noted b =>
      obtain rfl : d₁ = d.note b := hdoes
      exact ⟨htable, hheard⟩
    | _ => cases hm

end

end ExpiringStore
