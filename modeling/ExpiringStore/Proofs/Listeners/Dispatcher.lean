import ExpiringStore.Proofs.Desk.Station
import ExpiringStore.Proofs.Program.Attempts

/-!
# Dispatchers

A dispatcher has registered listeners and tells them of events.  Whatever listeners do when they
are called, an event is told to each place of the list of registered ones, in order, and its
announcement ends well.  How often a listener hears of it is therefore a matter of how often it is
in the list: registering keeps it from being there twice, but setting up with a list does not.

    since l (add l :: h)      =   since l h, or else the number of this registration
    since l (remove l :: h)   =   nothing
    InOrder ls h              each l with a since l h is in ls once, the earlier the sooner
    the listeners given at the start are distinct   ↔   every event is told in order  (lawful_iff)
-/

namespace ExpiringStore

variable {τ σ : Type}

/-! ## The order of registrations -/

/-- What becomes of listeners; nobody may be meant. -/
inductive Registration where
  | add (l : Option ListenerId)
  | remove (l : Option ListenerId)
  deriving DecidableEq

namespace Registration

/-- What a registration makes of the registered listeners. -/
def on : Registration → Listeners → Listeners
  | .add (some l), ls => ls.add l
  | .remove (some l), ls => ls.remove l
  | _, ls => ls

/-- The number of the registration by which a listener is registered: the first one since its last
removal.  The latest registration stands first. -/
def since (l : ListenerId) : List Registration → Option Nat
  | [] => none
  | .add l' :: before =>
    if l' = some l then (since l before).or (some before.length) else since l before
  | .remove l' :: before => if l' = some l then none else since l before

theorem since_lt {l : ListenerId} {history : List Registration} {n : Nat}
    (h : since l history = some n) : n < history.length := by
  induction history with
  | nil => cases h
  | cons r before ih =>
    rw [List.length_cons]
    cases r with
    | add l' =>
      unfold since at h
      split at h
      · rcases Option.or_eq_some_iff.1 h with h | ⟨-, h⟩
        · exact (ih h).trans (Nat.lt_succ_self _)
        · obtain rfl := Option.some.inj h
          exact Nat.lt_succ_self _
      · exact (ih h).trans (Nat.lt_succ_self _)
    | remove l' =>
      unfold since at h
      split at h
      · cases h
      · exact (ih h).trans (Nat.lt_succ_self _)

/-- A listener that is not registered stays so until it is added. -/
theorem since_none {l : ListenerId} {history : List Registration} (absent : since l history = none)
    {r : Registration} (hr : r ≠ .add (some l)) : since l (r :: history) = none := by
  cases r with
  | add l' =>
    have hne : ¬ l' = some l := fun e => hr (congrArg Registration.add e)
    rw [since, if_neg hne, absent]
  | remove l' =>
    rw [since]
    split
    · rfl
    · exact absent

/-- These are the registered listeners, each of them once, and the first registered first. -/
structure InOrder (ls : List ListenerId) (history : List Registration) : Prop where
  once : ls.Nodup
  registered (l : ListenerId) : l ∈ ls ↔ (since l history).isSome = true
  order : ls.Pairwise fun l l' => ∀ n n', since l history = some n →
    since l' history = some n' → n < n'

namespace InOrder

variable {ls : Listeners} {history : List Registration}

theorem nil : InOrder [] [] where
  once := .nil
  registered l := by simp [since]
  order := .nil

/-- Registering one that is registered already changes nothing, and a new one comes last. -/
theorem add (h : InOrder ls.registered history) (l : ListenerId) :
    InOrder (ls.add l).registered (.add (some l) :: history) := by
  have hother (l' : ListenerId) (hne : l' ≠ l) :
      since l' (.add (some l) :: history) = since l' history :=
    if_neg fun e => hne (Option.some.inj e).symm
  have hself : since l (.add (some l) :: history) =
      (since l history).or (some history.length) := if_pos rfl
  unfold Listeners.add
  split
  · next hregistered =>
    obtain ⟨n, hn⟩ := Option.isSome_iff_exists.1
      ((h.registered l).1 (List.contains_iff_mem.1 hregistered))
    have hsame : ∀ l', since l' (.add (some l) :: history) = since l' history := by
      intro l'
      by_cases hl : l' = l
      · rw [hl, hself, hn, Option.some_or]
      · exact hother l' hl
    refine ⟨h.once, fun l' => ?_, by simpa only [hsame] using h.order⟩
    rw [hsame]
    exact h.registered l'
  · next hregistered =>
    have hnew : l ∉ ls.registered := fun mem => hregistered (List.contains_iff_mem.2 mem)
    have hnone : since l history = none := by
      simpa using mt (h.registered l).2 hnew
    rw [hnone, Option.none_or] at hself
    have hne {l' : ListenerId} (mem : l' ∈ ls.registered) : l' ≠ l := fun e => hnew (e ▸ mem)
    refine ⟨?_, fun l' => ?_, ?_⟩
    · exact List.nodup_append.2 ⟨h.once, List.nodup_singleton l, fun a ha b hb =>
        List.mem_singleton.1 hb ▸ hne ha⟩
    · rw [List.mem_append, List.mem_singleton]
      by_cases hl : l' = l
      · rw [hl, hself]
        simp
      · rw [hother l' hl, ← h.registered l']
        simp [hl]
    · refine List.pairwise_append.2 ⟨?_, List.pairwise_singleton _ _, fun a ha b hb => ?_⟩
      · refine h.order.imp_of_mem fun ha hb hlt n n' hn hn' => ?_
        rw [hother _ (hne ha)] at hn
        rw [hother _ (hne hb)] at hn'
        exact hlt n n' hn hn'
      · intro n n' hn hn'
        obtain rfl := List.mem_singleton.1 hb
        rw [hother a (hne ha)] at hn
        obtain rfl := Option.some.inj (hself.symm.trans hn')
        exact since_lt hn

theorem remove (h : InOrder ls.registered history) (l : ListenerId) :
    InOrder (ls.remove l).registered (.remove (some l) :: history) := by
  have hother (l' : ListenerId) (hne : l' ≠ l) :
      since l' (.remove (some l) :: history) = since l' history :=
    if_neg fun e => hne (Option.some.inj e).symm
  have hself : since l (.remove (some l) :: history) = none := if_pos rfl
  have hmem (l' : ListenerId) : l' ∈ ls.registered.erase l ↔ l' ≠ l ∧ l' ∈ ls.registered :=
    h.once.mem_erase_iff
  refine ⟨h.once.erase l, fun l' => ?_, ?_⟩
  · refine (hmem l').trans ?_
    by_cases hl : l' = l
    · rw [hl, hself]
      simp
    · rw [hother l' hl, ← h.registered l']
      simp [hl]
  · refine (h.order.sublist List.erase_sublist).imp_of_mem fun ha hb hlt n n' hn hn' => ?_
    rw [hother _ ((hmem _).1 ha).1] at hn
    rw [hother _ ((hmem _).1 hb).1] at hn'
    exact hlt n n' hn hn'

/-- Registrations keep the order. -/
theorem on (h : InOrder ls.registered history) (r : Registration) :
    InOrder (r.on ls).registered (r :: history) := by
  have hsame (r : Registration) (h' : ∀ l, since l (r :: history) = since l history) :
      InOrder ls.registered (r :: history) :=
    ⟨h.once, fun l => by rw [h']; exact h.registered l, by simpa only [h'] using h.order⟩
  cases r with
  | add l =>
    cases l with
    | some l => exact h.add l
    | none => exact hsame _ fun l => if_neg nofun
  | remove l =>
    cases l with
    | some l => exact h.remove l
    | none => exact hsame _ fun l => if_neg nofun

end InOrder

/-! ## Setting up -/

/-- One registration after another. -/
def inTurn (rs : List Registration) (ls : Listeners) : Listeners :=
  rs.foldl (fun ls r => r.on ls) ls

theorem InOrder.inTurn {rs history : List Registration} {ls : Listeners}
    (h : InOrder ls.registered history) :
    InOrder (inTurn rs ls).registered (rs.reverse ++ history) := by
  induction rs generalizing ls history with
  | nil => exact h
  | cons r rest ih =>
    rw [List.reverse_cons, List.append_assoc]
    exact ih (h.on r)

/-- New and distinct listeners are registered in the order in which they are given. -/
theorem inTurn_add (given : List (Option ListenerId)) {ls : List ListenerId}
    (distinct : (ls ++ given.filterMap id).Nodup) :
    inTurn (given.map .add) ⟨ls⟩ = ⟨ls ++ given.filterMap id⟩ := by
  induction given generalizing ls with
  | nil => simp [inTurn]
  | cons l rest ih =>
    cases l with
    | none => exact ih distinct
    | some l =>
      replace distinct : (ls ++ l :: rest.filterMap id).Nodup := distinct
      have hnew : ¬ (Listeners.mk ls).isRegistered l = true := fun hregistered =>
        (List.nodup_append.1 distinct).2.2 l (List.contains_iff_mem.1 hregistered) l
          List.mem_cons_self rfl
      have hadd : on (.add (some l)) ⟨ls⟩ = ⟨ls ++ [l]⟩ := if_neg hnew
      show inTurn (rest.map .add) (on (.add (some l)) ⟨ls⟩) = _
      rw [hadd, ih (by simpa using distinct)]
      simp

/-- The registrations that a list given at the start stands for, the latest first. -/
def ofGiven (given : List (Option ListenerId)) : List Registration := (given.map .add).reverse

theorem inOrder_ofList {given : List (Option ListenerId)}
    (distinct : (given.filterMap id).Nodup) :
    InOrder (Listeners.ofList given).registered (ofGiven given) := by
  have hgiven : InOrder (inTurn (given.map .add) ⟨[]⟩).registered (ofGiven given ++ []) :=
    .inTurn .nil
  rw [inTurn_add given distinct, List.append_nil] at hgiven
  exact hgiven

end Registration

/-! ## Dispatchers -/

/-- A dispatcher: who is registered, what was told to whom, and the rest of the world, listeners
among it. -/
structure Dispatcher (σ : Type) where
  listeners : Listeners
  heard : List (ListenerId × Event)
  rest : σ

/-- What a dispatcher meets. -/
inductive Matter where
  | register (r : Registration)
  | fire (e : Event)

def Matter.registration? : Matter → Option Registration
  | .register r => some r
  | .fire _ => none

namespace Dispatcher

def setUp (given : List (Option ListenerId)) (s : σ) : Dispatcher σ := ⟨.ofList given, [], s⟩

variable (world : (e : Effect τ) → σ → e.Reply × σ)

/-- Effects are answered by the world; the dispatcher knows who is registered, and whom it told. -/
def handle : (e : Effect τ) → Dispatcher σ → e.Reply × Dispatcher σ
  | .listeners, d => (d.listeners.registered, d)
  | .notify l e, d =>
    let (r, s) := world (.notify l e) d.rest
    (r, { d with heard := d.heard ++ [(l, e)], rest := s })
  | e, d =>
    let (r, s) := world e d.rest
    (r, { d with rest := s })

/-- An event is announced: how the announcement ends, and what it leaves. -/
def fire (e : Event) (d : Dispatcher σ) : Except Failure Unit × Dispatcher σ :=
  (ExceptT.run (Operation.announce e : Operation τ Unit)).run (handle world) d

def meet (d : Dispatcher σ) : Matter → Dispatcher σ
  | .register r => { d with listeners := r.on d.listeners }
  | .fire e => (d.fire world e).2

def after (d : Dispatcher σ) (course : List Matter) : Dispatcher σ := course.foldl (meet world) d

/-- Listeners are told in turn, and the telling ends well, whichever of them fail. -/
theorem tell (e : Event) (ls : List ListenerId) (d : Dispatcher σ) :
    ∃ s, (ExceptT.run (Operation.tell e ls : Operation τ Unit)).run (handle world) d =
      (.ok (), { d with heard := d.heard ++ ls.map (·, e), rest := s }) := by
  induction ls generalizing d with
  | nil => exact ⟨d.rest, by rw [List.map_nil, List.append_nil]; rfl⟩
  | cons l rest ih =>
    rw [Operation.tell, Operation.run_perform_bind]
    have hheard : d.heard ++ (l :: rest).map (·, e) = (d.heard ++ [(l, e)]) ++ rest.map (·, e) := by
      simp
    rw [hheard]
    -- A listener that fails is logged, and the next one is told all the same.
    cases (handle world (.notify l e) d).1 with
    | none => exact ih (handle world (.notify l e) d).2
    | some text =>
      exact ih (handle world (.log (Operation.listenerEntry l e text))
        (handle world (.notify l e) d).2).2

/-- An event is told to each place in the list of registered listeners. -/
theorem fire_eq (e : Event) (d : Dispatcher σ) :
    ∃ s, d.fire world e = (.ok (), { d with
      heard := d.heard ++ d.listeners.registered.map (·, e), rest := s }) :=
  tell world e d.listeners.registered d

/-- An event is heard in order by those who are registered, each of them once, and its announcement
ends well. -/
structure Delivers (d : Dispatcher σ) (history : List Registration) (e : Event) : Prop where
  ok : (d.fire world e).1 = .ok ()
  heard : ∃ told, (d.fire world e).2.heard = d.heard ++ told.map (·, e) ∧
    Registration.InOrder told history

/-- The law of a dispatcher that was set up with these listeners, whatever they do, and whatever
comes after. -/
structure Lawful (given : List (Option ListenerId)) : Prop where
  /-- Every event is delivered. -/
  delivers {τ σ : Type} (world : (e : Effect τ) → σ → e.Reply × σ) (s : σ) (course : List Matter)
    (e : Event) : ((setUp given s).after world course).Delivers world
      ((course.filterMap Matter.registration?).reverse ++ Registration.ofGiven given) e
  /-- A listener that was removed hears nothing until it is added back. -/
  removed {τ σ : Type} (world : (e : Effect τ) → σ → e.Reply × σ) (s : σ)
    (before later : List Matter) (l : ListenerId) (gone : .register (.add (some l)) ∉ later) :
    ∃ told, ((setUp given s).after world (before ++ .register (.remove (some l)) :: later)).heard =
        ((setUp given s).after world before).heard ++ told ∧ ∀ p ∈ told, p.1 ≠ l

/-- What was registered is in order after every course. -/
theorem inOrder_after {d : Dispatcher σ} {history : List Registration}
    (h : Registration.InOrder d.listeners.registered history) (course : List Matter) :
    Registration.InOrder (d.after world course).listeners.registered
      ((course.filterMap Matter.registration?).reverse ++ history) := by
  induction course generalizing d history with
  | nil => exact h
  | cons m rest ih =>
    cases m with
    | register r =>
      have hnext := ih (d := d.meet world (.register r)) (h.on r)
      show Registration.InOrder _ ((r :: rest.filterMap Matter.registration?).reverse ++ history)
      rw [List.reverse_cons, List.append_assoc]
      exact hnext
    | fire e =>
      obtain ⟨s, hs⟩ := fire_eq world e d
      refine ih (d := d.meet world (.fire e)) ?_
      show Registration.InOrder (d.fire world e).2.listeners.registered history
      rw [hs]
      exact h

/-- One who is not registered hears nothing until added. -/
theorem heard_after {d : Dispatcher σ} {history : List Registration}
    (h : Registration.InOrder d.listeners.registered history) {l : ListenerId}
    (absent : Registration.since l history = none) (course : List Matter)
    (gone : .register (.add (some l)) ∉ course) :
    ∃ told, (d.after world course).heard = d.heard ++ told ∧ ∀ p ∈ told, p.1 ≠ l := by
  induction course generalizing d history with
  | nil => exact ⟨[], (List.append_nil _).symm, nofun⟩
  | cons m rest ih =>
    obtain ⟨hm, hrest⟩ := not_or.1 (mt List.mem_cons.2 gone)
    cases m with
    | register r =>
      exact ih (d := d.meet world (.register r)) (h.on r)
        (Registration.since_none absent fun e => hm (congrArg Matter.register e).symm) hrest
    | fire e =>
      obtain ⟨s, hs⟩ := fire_eq world e d
      have hmeet : d.meet world (.fire e) =
          { d with heard := d.heard ++ d.listeners.registered.map (·, e), rest := s } :=
        congrArg Prod.snd hs
      have hlater := ih (d := d.meet world (.fire e)) (hmeet ▸ h) absent hrest
      obtain ⟨told, htold, hothers⟩ := hlater
      refine ⟨d.listeners.registered.map (·, e) ++ told, ?_, fun p mem => ?_⟩
      · refine htold.trans ?_
        rw [hmeet, List.append_assoc]
      · rcases List.mem_append.1 mem with mem | mem
        · obtain ⟨l', hl', rfl⟩ := List.mem_map.1 mem
          rintro rfl
          have hsome := (h.registered _).1 hl'
          rw [absent] at hsome
          cases hsome
        · exact hothers p mem

/-- What is delivered once was given once. -/
theorem Lawful.distinct {given : List (Option ListenerId)} (lawful : Lawful given) :
    (given.filterMap id).Nodup := by
  obtain ⟨told, htold, hinOrder⟩ :=
    (lawful.delivers Host.plain.handle ((0 : Int), Station.opened .empty) [] .clear).heard
  obtain ⟨s, hs⟩ := fire_eq Host.plain.handle .clear
    (setUp given ((0 : Int), Station.opened .empty))
  replace htold : ((setUp given ((0 : Int), Station.opened .empty)).fire
      Host.plain.handle .clear).2.heard = told.map (·, .clear) := htold
  rw [hs] at htold
  have hgiven : (given.filterMap id).map (·, Event.clear) = told.map (·, .clear) := htold
  have hinjective : Function.Injective fun l : ListenerId => (l, Event.clear) :=
    fun _ _ h => congrArg Prod.fst h
  rw [hinjective.list_map hgiven]
  exact hinOrder.once

/-- A dispatcher is lawful exactly if it is set up with distinct listeners. -/
theorem lawful_iff (given : List (Option ListenerId)) :
    Lawful given ↔ (given.filterMap id).Nodup := by
  constructor
  · exact Lawful.distinct
  · intro distinct
    have hsetUp := Registration.inOrder_ofList distinct
    refine ⟨fun world s course e => ?_, fun world s before later l gone => ?_⟩
    · obtain ⟨s', hs'⟩ := fire_eq world e ((setUp given s).after world course)
      refine ⟨congrArg Prod.fst hs', _, ?_, inOrder_after world (d := setUp given s) hsetUp course⟩
      rw [hs']
    · have hbefore := inOrder_after world (d := setUp given s) hsetUp before
      have hafter := hbefore.on (.remove (some l))
      unfold after
      rw [List.foldl_append, List.foldl_cons]
      exact heard_after world (d := ((setUp given s).after world before).meet world
        (.register (.remove (some l)))) hafter (if_pos rfl) later gone

/-- A listener that is given twice hears of everything twice, and it goes on hearing after it was
removed. -/
theorem given_twice :
    let l : ListenerId := ⟨"l", "RecordingListener"⟩
    let d := setUp [some l, some l] ((0 : Int), Station.opened .empty)
    let put := Matter.fire (.put (.plain "k") (.int 1))
    let gone := Matter.register (.remove (some l))
    (d.after Host.plain.handle [put]).heard =
        [(l, .put (.plain "k") (.int 1)), (l, .put (.plain "k") (.int 1))] ∧
      (d.after Host.plain.handle [gone, put]).heard = [(l, .put (.plain "k") (.int 1))] ∧
      ¬ Lawful [some l, some l] := by
  refine ⟨rfl, rfl, fun lawful => ?_⟩
  exact absurd lawful.distinct (by decide)

end Dispatcher

end ExpiringStore
