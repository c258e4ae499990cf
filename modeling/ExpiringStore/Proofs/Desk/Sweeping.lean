import ExpiringStore.Proofs.Desk.Shown

/-!
# Removals that nobody sees

When expired rows are removed makes no difference to what calls answer.  Two runs of a plan at the
same instants stay level, though one makes cleanups besides and either may fail to remove an expired
row in passing: they agree on what is live, and on what is found, missed and written.

    Level h h' now s s'   →   a call shows the same in both, and leaves them level     (Level.visit)
    Level h h' now s s'   →   a cleanup of one leaves them level                       (Level.sweep)
-/

namespace ExpiringStore

variable {τ σ σ' : Type}

/-- What is called for at an instant; nothing in particular stands for a cleanup that is made
besides. -/
abbrev Visit (τ : Type) := τ × Option Call

def ownCalls (plan : List (Visit τ)) : List (τ × Call) :=
  plan.filterMap fun v => v.2.map (v.1, ·)

/-- The calls of a plan and the cleanups besides. -/
def allCalls (plan : List (Visit τ)) : List (τ × Call) :=
  plan.map fun v => (v.1, v.2.getD .cleanupExpired)

namespace Station

section
variable [Instant τ] [Delay τ] (h : Station τ σ) (c : Config τ)

/-- A call at an instant. -/
def visit (now : τ) (call : Call) (s : σ) : Except Failure Answer × σ :=
  h.answer c call (h.advance now s)

/-- One call after another. -/
def run : List (τ × Call) → σ → σ
  | [], s => s
  | (now, call) :: rest, s => run rest (h.visit c now call s).2

end

variable [OrderedInstant τ] [Delay τ] {h : Station τ σ} {h' : Station τ σ'} {c : Config τ}
  {s : σ} {s' : σ'} {now later : τ}

theorem visit_shows (obliging : h.Obliging c) (tidy : (h.desk s).Tidy now) (call : Call) :
    call.Shown c now (h.desk s) (h.desk (h.visit c now call s).2) (h.visit c now call s).1 ∧
      (h.desk (h.visit c now call s).2).Tidy now := by
  have htidy : (h.desk (h.advance now s)).Tidy (h.clock (h.advance now s)) := by
    rw [h.desk_advance, h.clock_advance]
    exact tidy
  have hshows := shows obliging htidy.readable call fun _ => htidy.past
  have hafter := tidy_answer obliging htidy call
  rw [h.clock_advance] at hshows hafter
  rw [h.desk_advance] at hshows
  exact ⟨hshows, hafter⟩

/-- Two runs that agree on what is live, and on what was found, missed and written. -/
structure Level (h : Station τ σ) (h' : Station τ σ') (now : τ) (s : σ) (s' : σ') : Prop where
  tidy : (h.desk s).Tidy now
  tidy' : (h'.desk s').Tidy now
  score : (h.desk s).statistics.score = (h'.desk s').statistics.score
  live : (h.desk s).table.live now = (h'.desk s').table.live now

omit [Delay τ] in
theorem Level.mono (level : Level h h' now s s') (hle : now ≤ later) : Level h h' later s s' :=
  ⟨level.tidy.mono hle, level.tidy'.mono hle, level.score, Table.live_congr level.live hle⟩

/-- A call shows the same in both runs. -/
theorem Level.visit (level : Level h h' now s s') (obliging : h.Obliging c)
    (obliging' : h'.Obliging c) (call : Call) :
    (call.IsAboutLive c → (h.visit c now call s).1 = (h'.visit c now call s').1) ∧
      Level h h' now (h.visit c now call s).2 (h'.visit c now call s').2 := by
  obtain ⟨shown, tidy⟩ := visit_shows obliging level.tidy call
  obtain ⟨shown', tidy'⟩ := visit_shows obliging' level.tidy' call
  have hanswer := shown'.answer
  have hscore := shown'.score
  have hleaves := shown'.leaves
  rw [← level.live] at hanswer hscore hleaves
  refine ⟨fun about => (shown.answer about).trans (hanswer about).symm, tidy, tidy', ?_,
    shown.leaves.unique hleaves⟩
  rw [shown.score, hscore, level.score]

/-- A cleanup of one of them makes no difference. -/
theorem Level.sweep (level : Level h h' now s s') (obliging' : h'.Obliging c) :
    Level h h' now s (h'.visit c now .cleanupExpired s').2 := by
  obtain ⟨shown, tidy'⟩ := visit_shows obliging' level.tidy' .cleanupExpired
  refine ⟨level.tidy, tidy', ?_, level.live.trans (Eq.symm shown.leaves)⟩
  rw [shown.score, level.score]
  exact (Score.add_nothing _).symm

/-- Runs that begin level are level at every later instant. -/
theorem Level.run (obliging : h.Obliging c) (obliging' : h'.Obliging c) {plan : List (Visit τ)}
    (level : Level h h' now s s')
    (sorted : (now :: (plan.map (·.1) ++ [later])).Pairwise (· ≤ ·)) :
    Level h h' later (h.run c (ownCalls plan) s) (h'.run c (allCalls plan) s') := by
  induction plan generalizing now s s' with
  | nil =>
    obtain ⟨hle, -⟩ := List.pairwise_cons.1 sorted
    exact level.mono (hle later List.mem_cons_self)
  | cons v rest ih =>
    obtain ⟨n, call⟩ := v
    obtain ⟨hle, hrest⟩ := List.pairwise_cons.1 sorted
    replace level := level.mono (hle n List.mem_cons_self)
    cases call with
    | some call => exact ih (level.visit obliging obliging' call).2 hrest
    | none => exact ih (level.sweep obliging') hrest

/-- The removal of expired rows is not seen.  Whatever cleanups one of two runs makes besides, and
whichever expired rows they fail to remove in passing, the next call answers the same in both, and
they agree on the live rows and on what was found, missed and written. -/
theorem removal_unobservable (obliging : h.Obliging c) (obliging' : h'.Obliging c)
    (table : (h.desk s).table = (h'.desk s').table) (readable : (h.desk s).table.IsReadable)
    (score : (h.desk s).statistics.score = (h'.desk s').statistics.score)
    (uncounted : (h.desk s).memo.counted = none) (uncounted' : (h'.desk s').memo.counted = none)
    (plan : List (Visit τ)) (now : τ) (sorted : (plan.map (·.1) ++ [now]).Pairwise (· ≤ ·)) :
    let r := h.run c (ownCalls plan) s
    let r' := h'.run c (allCalls plan) s'
    (∀ call : Call, call.IsAboutLive c → (h.visit c now call r).1 = (h'.visit c now call r').1) ∧
      (h.desk r).statistics.score = (h'.desk r').statistics.score ∧
      (h.desk r).table.live now = (h'.desk r').table.live now := by
  -- The runs are level at the first instant of all.
  obtain ⟨first, hfirst⟩ : ∃ first, ∀ n ∈ plan.map (·.1) ++ [now], first ≤ n := by
    cases plan with
    | nil => exact ⟨now, fun n mem => (List.mem_singleton.1 mem) ▸ le_refl n⟩
    | cons v rest =>
      refine ⟨v.1, fun n mem => ?_⟩
      rcases List.mem_cons.1 mem with rfl | mem
      · exact le_refl _
      · exact (List.pairwise_cons.1 sorted).1 n mem
  have start : Level h h' first s s' := by
    refine ⟨⟨readable, fun n at' counted => ?_⟩, ⟨table ▸ readable, fun n at' counted => ?_⟩,
      score, by rw [table]⟩
    · cases uncounted.symm.trans counted
    · cases uncounted'.symm.trans counted
  have level := start.run obliging obliging' (List.pairwise_cons.2 ⟨hfirst, sorted⟩)
  exact ⟨fun call => (level.visit obliging obliging' call).1, level.score, level.live⟩

/-- A number that stays, and two that expire. -/
def expiring : Table Int :=
  ((Table.empty.insert "a" (written (.document (.object [("v", .int 1)])) none)).insert "b"
    (written (.document (.object [("v", .int 2)])) (some 10))).insert "c"
    (written (.document (.object [("v", .int 3)])) (some 20))

/-- A cleanup at 15 besides, and a lookup of what has expired at 25. -/
def cleaned : List (Visit Int) := [(15, none), (25, some (.get (.str "c")))]

/-- The rows that are still there differ, and what is listed does not. -/
theorem removal_unobservable_remiss :
    let r := (plain false).run .plain (ownCalls cleaned) (0, opened expiring)
    let r' := (plain true).run .plain (allCalls cleaned) (0, opened expiring)
    r.2.table.keys = ["a", "b"] ∧ r'.2.table.keys = ["a", "c"] ∧
      ((plain false).visit .plain 30 .getAllKeys r).1 =
        ((plain true).visit .plain 30 .getAllKeys r').1 ∧
      r.2.statistics.score = r'.2.statistics.score := by
  have htable : ((plain false).desk (0, opened expiring)).table =
      ((plain true).desk (0, opened expiring)).table := rfl
  obtain ⟨hanswers, hscore, -⟩ := removal_unobservable (obliging_plain false .plain)
    (obliging_plain true .plain) htable (Table.isReadable_of_rows rfl) rfl rfl rfl cleaned 30
    (by decide)
  exact ⟨by decide +kernel, by decide +kernel, hanswers .getAllKeys trivial, hscore⟩

/-! ## Rows that are seen after they have expired -/

/-- A number that has expired at 10. -/
def expired : Table Int :=
  Table.empty.insert "k" (written (.document (.object [("v", .int 1)])) (some 10))

def stars (n : Nat) : String := String.ofList (List.replicate n '*')

/-- What a call answers at 20, on a table as it is and on one that was cleaned up at 15. -/
def beforeAndAfter (t : Table Int) (call : Call) :
    Except Failure Answer × Except Failure Answer :=
  (((plain false).visit .plain 20 call (0, opened t)).1,
    ((plain false).visit .plain 20 call
      ((plain false).visit .plain 15 .cleanupExpired (0, opened t)).2).1)

theorem likeOfGlob_stars (n : Nat) :
    likeOfGlob (stars n) = String.ofList (List.replicate n '%') := by
  have hglob : Like.ofGlob (List.replicate n '*') = List.replicate n '%' := by
    induction n with
    | zero => rfl
    | succ n ih =>
      rw [List.replicate_succ, List.replicate_succ, Like.ofGlob, ih]
      · rfl
      all_goals simp
  rw [likeOfGlob, stars, String.toList_ofList, hglob]

/-- A pattern of too many stars overtaxes every key. -/
theorem overtaxes_stars {n : Nat} (long : Like.longest < n) (key : String) :
    Like.overtaxes (likeOfGlob (stars n)) key = true := by
  have hsize : (String.ofList (List.replicate n '%')).utf8ByteSize = n := by
    clear long
    induction n with
    | zero => rfl
    | succ n ih =>
      rw [List.replicate_succ', String.ofList_append, String.utf8ByteSize_append, ih]
      rfl
  have hfront : Like.front (Like.visible (String.ofList (List.replicate n '%')).toList) = [] := by
    rw [String.toList_ofList]
    cases n <;> rfl
  rw [likeOfGlob_stars, Like.overtaxes, hsize, hfront, decide_eq_true long]
  rfl

theorem pattern_stars (n : Nat) (operation : String) :
    Arguments.pattern (.str (stars (n + 1))) operation = .ok (stars (n + 1)) := by
  have hsome : (stars (n + 1)).isEmpty = false := by
    rw [← Bool.not_eq_true, String.isEmpty_iff]
    intro h
    cases (String.ofList_injective h : List.replicate (n + 1) '*' = [])
  show (if (stars (n + 1)).isEmpty then _ else _) = _
  rw [hsome, if_neg nofun]

/-- A listing fails for an expired row that the pattern is too long for. -/
theorem listing_before {v : Value} {p : String} (hp : Arguments.pattern v "get_keys" = .ok p)
    (overtaxed : Like.overtaxes (likeOfGlob p) "k" = true) :
    ∃ f, (beforeAndAfter expired (.getKeys v)).1 = .error f := by
  obtain ⟨hends, hdoes⟩ := (plain false).answer_concludes .plain (.getKeys v) (20, opened expired)
  rcases hends with ⟨f, hf, -⟩ | haccounts
  · exact ⟨f, hf⟩
  · rw [Call.Accounts, hp] at haccounts
    obtain ⟨now, keys, hmarks, -⟩ := haccounts
    rw [hmarks] at hdoes
    obtain ⟨d₁, rfl, d₂, ⟨t, hdone, -⟩, -⟩ := hdoes
    cases overtaxed.symm.trans (Transaction.untaxed_of_liveKeys hdone (Table.find?_insert_self ..))

theorem listing_after {v : Value} {p : String} (hp : Arguments.pattern v "get_keys" = .ok p) :
    (beforeAndAfter expired (.getKeys v)).2 = .ok (.texts []) := by
  have hprogram : Call.program .plain (.getKeys v) = Answer.texts <$> (do
      Operation.startup .plain
      let now ← Operation.readClock
      Operation.transact .plain "get_keys" (.liveKeys (likeOfGlob p) now)) := by
    show Answer.texts <$> (Operation.ofExcept (Arguments.pattern v "get_keys") >>= _) = _
    rw [hp]
    rfl
  unfold beforeAndAfter visit Host.answer
  rw [hprogram]
  rfl

/-- An expired row fails a lookup that would miss it, and a listing that would pass it over. -/
theorem expired_rows_seen :
    beforeAndAfter garbled (.get (.str "k")) =
      (.error (.unreadablePayload "\x7bbad" ⟨.propertyName, 1⟩), .ok (.lookup .miss)) ∧
    (∃ f, (beforeAndAfter expired (.getKeys (.str (stars 50001)))).1 = .error f) ∧
      (beforeAndAfter expired (.getKeys (.str (stars 50001)))).2 = .ok (.texts []) :=
  ⟨by rfl, listing_before (pattern_stars 50000 _) (overtaxes_stars (by decide) _),
    listing_after (pattern_stars 50000 _)⟩

end Station

end ExpiringStore
