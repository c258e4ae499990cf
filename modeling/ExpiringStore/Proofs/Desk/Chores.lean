import ExpiringStore.Proofs.Desk.Insertion
import ExpiringStore.Proofs.Table.Assign

/-!
# Chores

A chore is an operation about one key.  At a steady station what it answers depends on the row of
this key, the clock and the listeners, and it leaves a row under the key, some tallies in the books
and some news for the listeners; the rows of other keys it neither reads nor changes.

    chore x, same row under k        →   x answers the same and leaves the same     (ComesOut)
    chore x, chore (f a) for all a   →   chore (x >>= f)                            (Chore.bind)
    a transaction about k            →   a chore about k, with all its attempts     (transact)

Tallies add up in any order, and rows of different keys are set in any order.

    served k₂ v (served k₁ u d)   =   served k₁ u (served k₂ v d)   but for the news  (served_comm)
-/

namespace ExpiringStore

variable {τ σ α β : Type}

/-! ## What chores leave -/

/-- Notes that add to a counter or forget the counted size. -/
def Bookkeeping.isTally : Bookkeeping τ → Bool
  | .record _ _ | .forgetSize => true
  | .keepSize _ _ _ => false

theorem Statistics.record_comm (s : Statistics) (c c' : Counter) (n n' : Int) :
    (s.record c n).record c' n' = (s.record c' n').record c n := by
  cases c <;> cases c' <;> simp [record, Int.add_right_comm]

theorem Statistics.after_comm (s : Statistics) (b b' : Bookkeeping τ) :
    (s.after b).after b' = (s.after b').after b := by
  cases b with
  | record c n =>
    cases b' with
    | record c' n' => exact s.record_comm c c' n n'
    | forgetSize | keepSize => rfl
  | forgetSize | keepSize => rfl

theorem SizeMemo.after_comm (m : SizeMemo τ) {b b' : Bookkeeping τ} (h : b.isTally = true)
    (h' : b'.isTally = true) : (m.after b).after b' = (m.after b').after b := by
  cases b with
  | keepSize => cases h
  | record | forgetSize =>
    cases b' with
    | keepSize => cases h'
    | record | forgetSize => rfl

/-- How a chore comes out: what it answers, the row it leaves under the key, what it notes in the
books, and what it tells listeners. -/
structure Upshot (τ α : Type) where
  answer : Except Failure α
  row : Option (Row τ)
  notes : List (Bookkeeping τ)
  tallies : ∀ b ∈ notes, b.isTally = true
  told : List (ListenerId × Event)

namespace Upshot

/-- What leaves the row as it is and notes nothing. -/
def still (answer : Except Failure α) (row : Option (Row τ)) : Upshot τ α :=
  ⟨answer, row, [], nofun, []⟩

/-- One upshot after another. -/
def followedBy (u : Upshot τ α) (v : Upshot τ β) : Upshot τ β where
  answer := v.answer
  row := v.row
  notes := u.notes ++ v.notes
  tallies b mem := (List.mem_append.1 mem).elim (u.tallies b) (v.tallies b)
  told := u.told ++ v.told

end Upshot

namespace Desk

/-- A desk after a chore about a key. -/
def served (d : Desk τ) (key : String) (u : Upshot τ α) : Desk τ where
  table := d.table.assign key u.row
  statistics := u.notes.foldl .after d.statistics
  memo := u.notes.foldl .after d.memo
  heard := d.heard ++ u.told

theorem served_still (d : Desk τ) (key : String) (answer : Except Failure α) :
    d.served key (.still answer (d.table.find? key)) = d := by
  simp [served, Upshot.still]

theorem served_followedBy (d : Desk τ) (key : String) (u : Upshot τ α) (v : Upshot τ β) :
    (d.served key u).served key v = d.served key (u.followedBy v) := by
  simp [served, Upshot.followedBy]

/-- Upshots for different keys leave the same in either order, but for the order of the news. -/
theorem served_comm {k₁ k₂ : String} (hne : k₁ ≠ k₂) (d : Desk τ) (u : Upshot τ α)
    (v : Upshot τ β) :
    (d.served k₁ u).served k₂ v =
      { (d.served k₂ v).served k₁ u with heard := d.heard ++ u.told ++ v.told } := by
  have htallies : ∀ b ∈ u.notes ++ v.notes, b.isTally = true := (u.followedBy v).tallies
  have hperm : (u.notes ++ v.notes).Perm (v.notes ++ u.notes) := List.perm_append_comm
  have hstatistics := hperm.foldl_eq' (f := Statistics.after)
    (fun b _ b' _ s => s.after_comm b b') d.statistics
  have hmemo := hperm.foldl_eq' (f := SizeMemo.after)
    (fun b hb b' hb' m => m.after_comm (htallies b hb) (htallies b' hb')) d.memo
  rw [List.foldl_append, List.foldl_append] at hstatistics hmemo
  simp only [served, Table.assign_comm hne, hstatistics, hmemo]

end Desk

variable [Instant τ]

/-! ## Chores -/

/-- How an operation comes out wherever this row is under the key, at an instant and with some
listeners. -/
def ComesOut (h : Station τ σ) (audience : σ → List ListenerId) (key : String) (x : Operation τ α)
    (now : τ) (ls : List ListenerId) (row : Option (Row τ)) (u : Upshot τ α) : Prop :=
  ∀ s, h.clock s = now → audience s = ls → (h.desk s).table.find? key = row →
    ((ExceptT.run x).run h.handle s).1 = u.answer ∧
      h.desk ((ExceptT.run x).run h.handle s).2 = (h.desk s).served key u

/-- An operation about one key. -/
def Chore (h : Station τ σ) (audience : σ → List ListenerId) (key : String)
    (x : Operation τ α) : Prop :=
  ∀ now ls row, ∃ u, ComesOut h audience key x now ls row u

namespace Chore

variable {h : Station τ σ} {audience : σ → List ListenerId} {key : String}

theorem decided (r : Except Failure α) : Chore h audience key (Operation.ofExcept r) :=
  fun _ _ row => ⟨.still r row, fun _ _ _ found =>
    ⟨rfl, by rw [← found, Desk.served_still]; rfl⟩⟩

theorem pure (a : α) : Chore h audience key (pure a) := decided (.ok a)

theorem throw (f : Failure) : Chore h audience key (throw f : Operation τ α) := decided (.error f)

/-! ## Single effects -/

/-- An effect that is answered the same wherever the row is the same. -/
theorem perform {e : Effect τ}
    (he : ∀ (now : τ) (ls : List ListenerId) (row : Option (Row τ)), ∃ u : Upshot τ e.Reply,
      ∀ s, h.clock s = now → audience s = ls → (h.desk s).table.find? key = row →
        .ok (h.handle e s).1 = u.answer ∧ h.desk (h.handle e s).2 = (h.desk s).served key u) :
    Chore h audience key (Operation.perform e) := he

/-- An effect of which nothing is asked and that leaves the desk as it is. -/
theorem aside {e : Effect τ} {r : e.Reply} (replies : ∀ s, (h.handle e s).1 = r)
    (leaves : ∀ s, h.desk (h.handle e s).2 = h.desk s) :
    Chore h audience key (Operation.perform e) :=
  perform fun _ _ row => ⟨.still (.ok r) row, fun s _ _ found =>
    ⟨congrArg _ (replies s), by rw [leaves, ← found, Desk.served_still]⟩⟩

theorem log (entry : Log.Entry) : Chore h audience key (Operation.log entry) :=
  aside (r := ()) (fun _ => rfl) fun s => h.lawful (.log entry) s

theorem pause (length : τ) : Chore h audience key (Operation.perform (.pause length)) :=
  aside (r := ()) (fun _ => rfl) fun s => h.lawful (.pause length) s

theorem readClock : Chore h audience key Operation.readClock := by
  intro now ls row
  refine ⟨.still (.ok now) row, fun s hclock _ found => ?_⟩
  obtain ⟨s', hcarried, hdesk, -⟩ := Station.Steady.readClock h s
  rw [hcarried.run, hdesk, ← found, Desk.served_still, hclock]
  exact ⟨rfl, rfl⟩

theorem bookkeep {b : Bookkeeping τ} (tally : b.isTally = true) :
    Chore h audience key (Operation.bookkeep b) :=
  perform fun _ _ row => ⟨⟨.ok (), row, [b], by simpa using tally, []⟩, fun s _ _ found => by
    have hnoted : h.desk (h.handle (.bookkeep b) s).2 = (h.desk s).note b :=
      h.lawful (.bookkeep b) s
    refine ⟨rfl, hnoted.trans ?_⟩
    simp [Desk.served, Desk.note, ← found]⟩

theorem reportPolicy (k : Value) (stored : String) :
    Chore h audience key (Operation.reportPolicy k stored) := by
  unfold Operation.reportPolicy
  split
  · exact pure ()
  · exact log _

theorem settle {meet : Fault → Operation τ α} (hmeet : ∀ f, Chore h audience key (meet f))
    (r : Except Failure α) : Chore h audience key (Operation.settle meet r) := by
  cases r with
  | ok r => exact pure r
  | error f =>
    cases f with
    | fault f =>
      show Chore h audience key (if _ then _ else _)
      split
      · exact throw _
      · exact hmeet f
    | _ => exact throw _

/-! ## One after another -/

section
variable (steady : h.Steady audience)
include steady

/-- An operation goes on with the answer of a chore, or with its failure. -/
theorem andThen {x : Operation τ α} {y : Operation τ β}
    (next : Except Failure α → Operation τ β)
    (hy : ExceptT.run y = ExceptT.run x >>= fun r => ExceptT.run (next r))
    (hx : Chore h audience key x) (hnext : ∀ r, Chore h audience key (next r)) :
    Chore h audience key y := by
  intro now ls row
  obtain ⟨u, hu⟩ := hx now ls row
  obtain ⟨v, hv⟩ := hnext u.answer now ls u.row
  refine ⟨u.followedBy v, fun s hclock haudience hrow => ?_⟩
  obtain ⟨hanswer, hdesk⟩ := hu s hclock haudience hrow
  have hkind := Program.kind_run steady.stays_kind (ExceptT.run x) ⟨hclock, haudience⟩
  have hfound : (h.desk ((ExceptT.run x).run h.handle s).2).table.find? key = u.row := by
    rw [hdesk]
    exact Table.find?_assign_self ..
  rw [hy, Program.run_bind, hanswer, ← Desk.served_followedBy, ← hdesk]
  exact hv _ hkind.1 hkind.2 hfound

theorem bind {x : Operation τ α} {f : α → Operation τ β} (hx : Chore h audience key x)
    (hf : ∀ a, Chore h audience key (f a)) : Chore h audience key (x >>= f) := by
  refine andThen steady (fun r => Operation.ofExcept r >>= f) rfl hx fun r => ?_
  cases r with
  | ok a => exact hf a
  | error failure => exact throw failure

theorem map {x : Operation τ α} (g : α → β) (hx : Chore h audience key x) :
    Chore h audience key (g <$> x) := by
  rw [map_eq_pure_bind]
  exact hx.bind steady fun a => pure (g a)

theorem tryCatch {x : Operation τ α} {f : Failure → Operation τ α}
    (hx : Chore h audience key x) (hf : ∀ failure, Chore h audience key (f failure)) :
    Chore h audience key (MonadExcept.tryCatch x f) := by
  refine andThen steady (fun r => MonadExcept.tryCatch (Operation.ofExcept r) f) rfl hx fun r => ?_
  cases r with
  | ok a => exact pure a
  | error failure => exact hf failure

theorem discard {x : Operation τ α} (hx : Chore h audience key x) :
    Chore h audience key (Functor.discard x) := hx.map steady _

/-! ## Attempts and what comes with them -/

theorem attempt {a : Transaction τ} (about : a.About key) :
    Chore h audience key (Operation.perform (.attempt a)) := by
  refine perform fun _ _ row => ?_
  obtain ⟨x, hx⟩ := about.comesTo row
  refine ⟨⟨.ok (x.map (·.1)), (x.map (·.2)).toOption.getD row, [], nofun, []⟩,
    fun s _ _ found => ?_⟩
  have hattempt := steady.attempts a s
  have hdoes := h.lawful (.attempt a) s
  have hcommit := hx (h.desk s).table found
  rw [hcommit] at hattempt
  cases x with
  | error f =>
    replace hattempt : (h.handle (.attempt a) s).1 = .error f := hattempt
    rw [hattempt] at hdoes ⊢
    replace hdoes : h.desk (h.handle (.attempt a) s).2 = h.desk s := hdoes
    refine ⟨rfl, hdoes.trans ?_⟩
    rw [← found]
    exact (Desk.served_still (h.desk s) key (.ok ())).symm
  | ok p =>
    replace hattempt : (h.handle (.attempt a) s).1 = .ok p.1 := hattempt
    rw [hattempt] at hdoes ⊢
    obtain ⟨t, ht, hdesk⟩ := hdoes
    obtain ⟨-, rfl⟩ := Prod.mk.inj (Except.ok.inj (hcommit.symm.trans ht))
    refine ⟨rfl, hdesk.trans ?_⟩
    simp [Desk.served, Except.map, Except.toOption]

/-- Listeners are told in turn, whether or not some of them fail. -/
theorem tell (e : Event) (ls : List ListenerId) :
    Chore h audience key (Operation.tell e ls) := by
  induction ls with
  | nil => exact pure ()
  | cons l rest ih =>
    intro now audience' row
    obtain ⟨u, hu⟩ := ih now audience' row
    refine ⟨{ u with told := (l, e) :: u.told }, fun s hclock haudience found => ?_⟩
    have htold : h.desk (h.handle (.notify l e) s).2 =
        { h.desk s with heard := (h.desk s).heard ++ [(l, e)] } :=
      h.silent _ _ (h.lawful (.notify l e) s)
    have hstays := steady.stays_kind (.notify l e) s ⟨hclock, haudience⟩
    have hserved : ({ h.desk s with heard := (h.desk s).heard ++ [(l, e)] } : Desk τ).served key u =
        (h.desk s).served key { u with told := (l, e) :: u.told } := by
      simp [Desk.served]
    -- A listener that fails is logged, and then the rest is told all the same.
    have hrest (s' : σ) (hs' : h.clock s' = now ∧ audience s' = audience')
        (hdesk : h.desk s' = h.desk (h.handle (.notify l e) s).2) :
        ((ExceptT.run (Operation.tell e rest)).run h.handle s').1 = u.answer ∧
          h.desk ((ExceptT.run (Operation.tell e rest)).run h.handle s').2 =
            (h.desk s).served key { u with told := (l, e) :: u.told } := by
      rw [← hserved, ← htold, ← hdesk]
      refine hu s' hs'.1 hs'.2 ?_
      rw [hdesk, htold]
      exact found
    rw [Operation.tell, Operation.run_perform_bind]
    cases (h.handle (.notify l e) s).1 with
    | none => exact hrest _ hstays rfl
    | some text =>
      exact hrest _ (steady.stays_kind (.log (Operation.listenerEntry l e text)) _ hstays)
        (h.lawful (.log (Operation.listenerEntry l e text)) _)

theorem announce (e : Event) : Chore h audience key (Operation.announce e) := by
  have hlisteners : Chore h audience key (Operation.perform .listeners) :=
    perform fun _ ls row => ⟨.still (.ok ls) row, fun s _ haudience found => by
      refine ⟨congrArg _ ((steady.lists s).trans haudience), ?_⟩
      rw [← found, Desk.served_still]
      exact h.lawful .listeners s⟩
  exact hlisteners.bind steady fun ls => tell steady e ls

theorem bestEffort (event : String) (k : Key) {x : Operation τ α}
    (hx : Chore h audience key x) : Chore h audience key (Operation.bestEffort event k x) := by
  refine (hx.map steady some).tryCatch steady fun failure => ?_
  cases failure with
  | complaint x => exact (log _).bind steady fun _ => pure none
  | _ => exact throw _

theorem startup (c : Config τ) : Chore h audience key (Operation.startup c) :=
  fun _ _ row => ⟨.still (.ok ()) row, fun s _ _ found => by
    obtain ⟨s', hcarried, hdesk, -⟩ := steady.startup c s
    rw [hcarried.run, hdesk, ← found, Desk.served_still]
    exact ⟨rfl, rfl⟩⟩

section
variable [Delay τ]

theorem waitFor (p : RetryPolicy τ) (operation : String) (k : Option Key) (n : Nat) (f : Fault) :
    Chore h audience key (Operation.waitFor p operation k n f) := by
  unfold Operation.waitFor
  split
  · exact throw _
  · exact (log _).bind steady fun _ => pause _

/-- A transaction about the key, however often it is attempted. -/
theorem transactFrom (p : RetryPolicy τ) (operation : String) (k : Option Key) {a : Transaction τ}
    (about : a.About key) (n left : Nat) :
    Chore h audience key (Operation.transactFrom p operation k a n left) := by
  induction left generalizing n with
  | zero =>
    unfold Operation.transactFrom
    exact (attempt steady about).bind steady (settle fun f => throw _)
  | succ left ih =>
    unfold Operation.transactFrom
    refine (attempt steady about).bind steady (settle fun f => ?_)
    split
    · exact (waitFor steady p operation k n f).bind steady fun _ => ih (n + 1)
    · exact throw _

theorem transact (c : Config τ) (operation : String) (k : Option Key) {a : Transaction τ}
    (about : a.About key) : Chore h audience key (Operation.transact c operation a k) :=
  transactFrom steady c.retry operation k about 1 _

end

end

end Chore

end ExpiringStore
