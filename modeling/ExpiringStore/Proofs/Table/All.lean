import ExpiringStore.Proofs.Table.Turnover

/-!
# What rows have in common

Something that is true of every row of a table stays true in a commit if it is true of the rows that
are written, and is kept where rows are touched and renewed.  What a commit answers of rows are rows
of the table, and as long as all payloads can be read, no failure of a commit is about one.

    t.All P,  a.Keeps P   →   (commit t a).All P                              (all_commit)
    rows that are answered are found in the table                             (shown_commit)
-/

namespace ExpiringStore

variable {τ : Type}

/-- Is something true of every row, under its key? -/
def Table.All (P : String → Row τ → Prop) (t : Table τ) : Prop :=
  ∀ key row, t.find? key = some row → P key row

/-- Is a failure about a payload, one that cannot be written, read or decoded? -/
def Failure.isAboutPayload : Failure → Bool
  | .complaint c => c.kind == .serialization
  | .unreadablePayload _ _ => true
  | _ => false

/-- Nothing fails here because of a payload. -/
def Blameless {α : Type} (x : Except Failure α) : Prop :=
  ∀ f, x = .error f → f.isAboutPayload = false

theorem blameless_ok {α : Type} (a : α) : Blameless (.ok a) := fun _ h => by cases h

theorem blameless_error {α : Type} {f : Failure} (h : f.isAboutPayload = false) :
    Blameless (.error f : Except Failure α) := fun _ hf => Except.error.inj hf ▸ h

theorem blameless_map {α β : Type} {x : Except Failure α} (h : Blameless x) (g : α → β) :
    Blameless (x.map g) := by
  cases x with
  | ok a => exact blameless_ok _
  | error f => exact blameless_error (h f rfl)

namespace Table

variable {P : String → Row τ → Prop} {t : Table τ}

theorem all_empty : (empty : Table τ).All P := fun _ _ found => by cases found

theorem All.mono {Q : String → Row τ → Prop} (h : t.All P)
    (weaker : ∀ key row, P key row → Q key row) : t.All Q :=
  fun key row found => weaker key row (h key row found)

theorem All.insert (h : t.All P) {key : String} {row : Row τ} (hrow : P key row) :
    (t.insert key row).All P := by
  intro k r found
  rw [find?_insert] at found
  split at found
  · next hk =>
    obtain rfl := Option.some.inj found
    exact hk ▸ hrow
  · exact h k r found

end Table

namespace Transaction

variable [Instant τ] {P : String → Row τ → Prop} {t t' : Table τ} {a : Transaction τ}

/-! ## Rows that are kept -/

/-- Does a transaction write only rows of which something is true, and is it kept where a row is
touched or renewed? -/
def Keeps (P : String → Row τ → Prop) : Transaction τ → Prop
  | .write rows => ∀ key row, (key, row) ∈ rows → ∀ kept, constrained row = .ok kept → P key kept
  | .writeIfAbsent key row _ => ∀ kept, constrained row = .ok kept → P key kept
  | .touch key now => ∀ row, P key row → P key { row with lastAccessed := Instant.stored now }
  | .extend key ttl policy now => ∀ row, P key row →
    ∀ kept, constrained (renewed row ttl policy now) = .ok kept → P key kept
  | _ => True

theorem all_writeRows {rows : List (String × Row τ)} (h : t.All P)
    (keeps : ∀ key row, (key, row) ∈ rows → ∀ kept, constrained row = .ok kept → P key kept)
    (done : writeRows t rows = .ok t') : t'.All P := by
  induction rows generalizing t with
  | nil =>
    obtain rfl := Except.ok.inj done
    exact h
  | cons p rest ih =>
    obtain ⟨key, row⟩ := p
    unfold writeRows at done
    split at done
    · cases done
    · next kept hkept =>
      refine ih (h.insert (keeps key row List.mem_cons_self kept hkept)) (fun k r mem => ?_) done
      exact keeps k r (List.mem_cons_of_mem _ mem)

/-- What is true of every row stays true in a commit that keeps it. -/
theorem all_commit {r : a.Reply} (h : t.All P) (keeps : a.Keeps P)
    (done : commit t a = .ok (r, t')) : t'.All P := by
  obtain ⟨b, hb, rfl, -⟩ := commit_ok done
  cases a with
  | probe | fetch | fetchMany | isLive | liveKeys | countLive =>
    obtain ⟨_, -, rfl⟩ := reading_ok hb
    exact h
  | write rows =>
    simp only [firstOn] at hb
    split at hb
    · cases hb
    · next t₁ hwrite =>
      obtain rfl := Except.ok.inj hb
      exact all_writeRows h keeps hwrite
  | writeIfAbsent key row now =>
    simp only [firstOn] at hb
    split at hb
    · cases hb
    · next t₁ hinsert =>
      obtain rfl := Except.ok.inj hb
      obtain ⟨kept, hkept, rfl⟩ := insertUnlessLive_inserted hinsert
      exact h.insert (keeps kept hkept)
    · next t₁ hkeeps =>
      obtain rfl := Except.ok.inj hb
      obtain rfl := eq_of_insertUnlessLive hkeeps
      exact h
  | touch key now =>
    obtain rfl := Except.ok.inj hb
    intro k row found
    replace found : (t.map _).find? k = some row := found
    rw [Table.find?_map] at found
    obtain ⟨old, hold, rfl⟩ := Option.map_eq_some_iff.1 found
    split
    · next hk =>
      obtain rfl := beq_iff_eq.1 hk
      exact keeps old (h k old hold)
    · exact h k old hold
  | extend key ttl policy now =>
    simp only [firstOn] at hb
    split at hb
    · cases hb
    · split at hb
      · obtain rfl := Except.ok.inj hb
        exact h
      · next old hold =>
        split at hb
        · obtain rfl := Except.ok.inj hb
          exact h
        · split at hb
          · cases hb
          · next kept hkept =>
            obtain rfl := Except.ok.inj hb
            exact h.insert (keeps old (h key old hold) kept hkept)
  | remove | removeExpiredKey | removeMany | removeMatching | removeEvery | removeExpired =>
    intro key row found
    rw [find?_removal rfl done, Option.filter_eq_some_iff] at found
    exact h key row found.1

/-! ## Rows that are answered -/

/-- The rows that a transaction answers. -/
def shown : (a : Transaction τ) → a.Reply → List (String × Row τ)
  | .fetch key, some row => [(key, row)]
  | .fetchMany _, rows => rows
  | .writeIfAbsent key _ _, .present row => [(key, row)]
  | _, _ => []

omit [Instant τ] in
theorem mem_of_allReadable {rows read : List (String × Row τ)} (h : allReadable rows = .ok read) :
    ∀ p ∈ read, p ∈ rows := by
  induction rows generalizing read with
  | nil =>
    obtain rfl := Except.ok.inj h
    exact fun p mem => mem
  | cons q rest ih =>
    obtain ⟨key, row⟩ := q
    unfold allReadable at h
    split at h
    · cases h
    · next kept hkept =>
      obtain rfl := readable_ok hkept
      cases hrest : allReadable rest with
      | error f => rw [hrest] at h; cases h
      | ok read' =>
        rw [hrest] at h
        obtain rfl := Except.ok.inj h
        exact List.forall_mem_cons.2 ⟨List.mem_cons_self, fun p mem =>
          List.mem_cons_of_mem _ (ih hrest p mem)⟩

/-- The row that is answered to be there already is found in the table. -/
theorem find?_of_liveRow {key : String} {now : τ} {row : Row τ}
    (h : liveRow t key now = .ok (.present row)) : t.find? key = some row := by
  unfold liveRow at h
  split at h
  · cases h
  · next found hfound =>
    split at h
    · cases hread : readable found with
      | error f => rw [hread] at h; cases h
      | ok kept =>
        rw [hread] at h
        obtain rfl := readable_ok hread
        obtain rfl := Insertion.present.inj (Except.ok.inj h)
        exact hfound
    · cases h

theorem shown_commit {r : a.Reply} (done : commit t a = .ok (r, t')) :
    ∀ p ∈ a.shown r, t.find? p.1 = some p.2 := by
  obtain ⟨b, hb, rfl, hanswer⟩ := commit_ok done
  cases a with
  | fetch key =>
    obtain ⟨found, hfound, rfl⟩ := reading_ok hb
    obtain rfl := Except.ok.inj hanswer
    split at hfound
    · obtain rfl := Except.ok.inj hfound
      exact List.forall_mem_nil _
    · next row hrow =>
      cases hread : readable row with
      | error f => rw [hread] at hfound; cases hfound
      | ok kept =>
        rw [hread] at hfound
        obtain rfl := readable_ok hread
        obtain rfl := Except.ok.inj hfound
        exact List.forall_mem_singleton.2 hrow
  | fetchMany keys =>
    obtain ⟨read, hread, rfl⟩ := reading_ok hb
    obtain rfl := Except.ok.inj hanswer
    rintro ⟨key, row⟩ mem
    have hrow := (List.mem_filter.1 (mem_of_allReadable hread _ mem)).1
    exact (Table.mem_rows_iff t key row).1 hrow
  | writeIfAbsent key row now =>
    simp only [firstOn] at hb
    split at hb
    · cases hb
    · next t₁ hinsert =>
      obtain rfl := Except.ok.inj hb
      obtain rfl := Except.ok.inj hanswer
      exact List.forall_mem_nil _
    · next t₁ hkeeps =>
      obtain rfl := Except.ok.inj hb
      obtain rfl := eq_of_insertUnlessLive hkeeps
      cases r with
      | present row => exact List.forall_mem_singleton.2 (find?_of_liveRow hanswer)
      | inserted | neither => exact List.forall_mem_nil _
  | _ => exact List.forall_mem_nil _

/-! ## Failures -/

omit [Instant τ] in
theorem blameless_readable {row : Row τ} (read : row.payload.readError? = none) :
    Blameless (readable row) := by
  unfold readable
  rw [read]
  exact blameless_ok row

omit [Instant τ] in
theorem blameless_allReadable {rows : List (String × Row τ)}
    (read : ∀ p ∈ rows, p.2.payload.readError? = none) : Blameless (allReadable rows) := by
  induction rows with
  | nil => exact blameless_ok _
  | cons p rest ih =>
    obtain ⟨key, row⟩ := p
    obtain ⟨hrow, hrest⟩ := List.forall_mem_cons.1 read
    have hread : readable row = .ok row := by
      unfold readable
      rw [hrow]
    unfold allReadable
    rw [hread]
    exact blameless_map (ih hrest) _

theorem blameless_constrained (row : Row τ) : Blameless (constrained row) := by
  unfold constrained
  split
  · exact blameless_error rfl
  · split
    · exact blameless_error rfl
    · exact blameless_ok _

theorem blameless_writeRows (t : Table τ) (rows : List (String × Row τ)) :
    Blameless (writeRows t rows) := by
  induction rows generalizing t with
  | nil => exact blameless_ok _
  | cons p rest ih =>
    obtain ⟨key, row⟩ := p
    unfold writeRows
    cases hrow : constrained row with
    | error f => exact blameless_error (blameless_constrained row f hrow)
    | ok kept => exact ih _

theorem blameless_insertUnlessLive (t : Table τ) (key : String) (row : Row τ) (now : τ) :
    Blameless (insertUnlessLive t key row now) := by
  unfold insertUnlessLive
  cases hrow : constrained row with
  | error f => exact blameless_error (blameless_constrained row f hrow)
  | ok kept =>
    dsimp only
    split
    · exact blameless_ok _
    · split <;> exact blameless_ok _

theorem blameless_liveRow (read : t.All fun _ row => row.payload.readError? = none) (key : String)
    (now : τ) : Blameless (liveRow t key now) := by
  unfold liveRow
  split
  · exact blameless_ok _
  · next row hrow =>
    split
    · exact blameless_map (blameless_readable (read key row hrow)) _
    · exact blameless_ok _

omit [Instant τ] in
theorem blameless_matchable (t : Table τ) (pattern : String) : Blameless (matchable t pattern) := by
  unfold matchable
  split
  · exact blameless_ok _
  · exact blameless_error rfl

theorem blameless_firstOn (read : t.All fun _ row => row.payload.readError? = none)
    (a : Transaction τ) : Blameless (firstOn t a) := by
  cases a with
  | probe | isLive | countLive => exact blameless_ok _
  | fetch key =>
    refine blameless_map ?_ _
    split
    · exact blameless_ok _
    · next row hrow => exact blameless_map (blameless_readable (read key row hrow)) _
  | fetchMany keys =>
    refine blameless_map (blameless_allReadable fun p mem => ?_) _
    exact read p.1 p.2 ((Table.mem_rows_iff t p.1 p.2).1 (List.mem_filter.1 mem).1)
  | liveKeys pattern now => exact blameless_map (blameless_map (blameless_matchable t pattern) _) _
  | write rows =>
    simp only [firstOn]
    split
    · next f hf => exact blameless_error (blameless_writeRows t rows f hf)
    · exact blameless_ok _
  | writeIfAbsent key row now =>
    simp only [firstOn]
    split
    · next f hf => exact blameless_error (blameless_insertUnlessLive t key row now f hf)
    · exact blameless_ok _
    · exact blameless_ok _
  | extend key ttl policy now =>
    simp only [firstOn]
    split
    · exact blameless_error rfl
    · split
      · exact blameless_ok _
      · split
        · exact blameless_ok _
        · split
          · next f hf => exact blameless_error (blameless_constrained _ f hf)
          · exact blameless_ok _
  | removeMatching pattern =>
    simp only [firstOn]
    split
    · next f hf => exact blameless_error (blameless_matchable t pattern f hf)
    · exact blameless_ok _
  | touch | remove | removeExpiredKey | removeMany | removeEvery | removeExpired =>
    exact blameless_ok _

theorem answer_extend {key : String} {ttl : Int} {policy : Policy} {now : τ} {b : Begun τ Bool}
    (h : firstOn t (.extend key ttl policy now) = .ok b) : ∃ r, b.answer b.table = .ok r := by
  simp only [firstOn] at h
  split at h
  · cases h
  · split at h
    · exact ⟨false, by rw [← Except.ok.inj h]⟩
    · split at h
      · exact ⟨false, by rw [← Except.ok.inj h]⟩
      · split at h
        · cases h
        · exact ⟨true, by rw [← Except.ok.inj h]⟩

/-- Where all payloads can be read, no commit fails because of one. -/
theorem blameless_commit (read : t.All fun _ row => row.payload.readError? = none)
    (a : Transaction τ) : Blameless (commit t a) := by
  rw [commit_eq]
  cases hb : firstOn t a with
  | error f => exact blameless_error (blameless_firstOn read a f hb)
  | ok b =>
    refine blameless_map ?_ _
    cases a with
    | writeIfAbsent key row now =>
      simp only [firstOn] at hb
      split at hb
      · cases hb
      · obtain rfl := Except.ok.inj hb
        exact blameless_ok _
      · next t₁ hkeeps =>
        obtain rfl := Except.ok.inj hb
        obtain rfl := eq_of_insertUnlessLive hkeeps
        exact blameless_liveRow read key now
    | probe | fetch | fetchMany | isLive | liveKeys | countLive =>
      obtain ⟨r, -, rfl⟩ := reading_ok hb
      exact blameless_ok r
    | write rows =>
      simp only [firstOn] at hb
      split at hb
      · cases hb
      · obtain rfl := Except.ok.inj hb
        exact blameless_ok ()
    | extend key ttl policy now =>
      obtain ⟨r, hr⟩ := answer_extend hb
      rw [hr]
      exact blameless_ok r
    | removeMatching pattern =>
      simp only [firstOn] at hb
      split at hb
      · cases hb
      · obtain rfl := Except.ok.inj hb
        exact blameless_ok _
    | touch | remove | removeExpiredKey | removeMany | removeEvery | removeExpired =>
      obtain rfl := Except.ok.inj hb
      exact blameless_ok _

end Transaction

end ExpiringStore
