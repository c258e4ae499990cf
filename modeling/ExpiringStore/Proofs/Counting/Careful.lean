import ExpiringStore.Proofs.Counting.Upkeep

/-!
# Calls that are careful with the counted size

The marks of a call are careful in one of four ways: they spare the table and the counted size; they
move a live row forward; they change the table and forget the size after that; or they count the
size and keep it.  Whoever leaves careful marks keeps the counted size up.

    Careful lo hi ms         ms is careful, and reads the clock between lo and hi
    Accounts c call t r                          →   Careful lo hi t.marks        (Accounts.careful)
    Careful lo hi ms,  ms leads from d to d'     →   Upkeep d d'                  (Careful.upkeep)
-/

namespace ExpiringStore

variable {τ : Type}

/-! ## Marks that spare the size -/

/-- A mark of a step that leaves the table and the counted size as they are. -/
def Mark.spares : Mark τ → Bool
  | .committed a r => a.spares r
  | .noted (.record _ _) => true
  | .noted _ => false
  | .read _ | .recalled _ | .listed _ | .told _ _ => true

theorem Mark.spares_of_isIdle {m : Mark τ} (idle : m.isIdle = true) : m.spares = true := by
  cases m with
  | read | recalled => rfl
  | committed a r => exact Transaction.spares_of_isQuiet idle
  | noted | listed | told => cases idle

theorem all_spares_of_isIdle {ms : List (Mark τ)} (idle : ms.all Mark.isIdle = true) :
    ms.all Mark.spares = true :=
  List.all_eq_true.2 fun m mem => Mark.spares_of_isIdle (List.all_eq_true.1 idle m mem)

theorem all_spares_of_announced {es : List Event} {told : List (Mark τ)}
    (h : Announced es told) : told.all Mark.spares = true := by
  induction h with
  | nil => rfl
  | cons e ls rest ih =>
    have htold : (ls.map fun l => (Mark.told l e : Mark τ)).all Mark.spares = true := by
      simp [Mark.spares]
    rw [List.all_append, ih, Bool.and_true]
    exact htold

section
variable [MonotoneInstant τ] {listens : Desk τ → Desk τ → Prop} {d d' : Desk τ}

/-- Where listeners leave the desk alone, such marks leave the table and the counted size. -/
theorem Does.spared (silent : ∀ d d', listens d d' → d' = d) {ms : List (Mark τ)}
    (h : Does listens ms d d') (spared : ms.all Mark.spares = true) :
    d'.table = d.table ∧ d'.memo = d.memo := by
  induction ms generalizing d with
  | nil =>
    obtain rfl : d' = d := h
    exact ⟨rfl, rfl⟩
  | cons m rest ih =>
    obtain ⟨hm, hrest⟩ := Bool.and_eq_true_iff.1 (List.all_cons ▸ spared)
    obtain ⟨d₁, hdoes, hmore⟩ := h
    obtain ⟨htable, hmemo⟩ := ih hmore hrest
    cases m with
    | read now =>
      obtain rfl : d₁ = d := hdoes
      exact ⟨htable, hmemo⟩
    | recalled memo =>
      obtain rfl : d₁ = d := hdoes.2
      exact ⟨htable, hmemo⟩
    | listed ls =>
      obtain rfl : d₁ = d := hdoes
      exact ⟨htable, hmemo⟩
    | told l e =>
      obtain rfl := silent _ _ hdoes
      exact ⟨htable, hmemo⟩
    | noted b =>
      obtain rfl : d₁ = d.note b := hdoes
      cases b with
      | record counter n => exact ⟨htable, hmemo⟩
      | forgetSize | keepSize => cases hm
    | committed a r =>
      obtain ⟨t, hcommit, rfl⟩ := hdoes
      exact ⟨htable.trans (Transaction.commit_spared hm hcommit), hmemo⟩

end

/-! ## Careful marks -/

section
variable [MonotoneInstant τ]

/-- Marks of those who are careful with the counted size, and read the clock between two
instants. -/
inductive Careful (lo hi : τ) : List (Mark τ) → Prop
  | spared {ms : List (Mark τ)} (spared : ms.all Mark.spares = true) : Careful lo hi ms
  | moved {key : String} {row : Row τ} {now : τ} {rest : List (Mark τ)} (after : lo ≤ now)
      (before : now ≤ hi) (live : row.isExpired now = false)
      (spared : rest.all Mark.spares = true) : Careful lo hi
        (.committed (.fetch key) (some row) :: .read now :: .committed (.touch key now) () :: rest)
  | forgotten (first between : List (Mark τ)) {last : List (Mark τ)} {a : Transaction τ}
      {r : a.Reply} (stamps : a.StampsBy hi) (hfirst : first.all Mark.spares = true)
      (hbetween : between.all Mark.spares = true) (hlast : last.all Mark.spares = true) :
      Careful lo hi (first ++ .committed a r :: (between ++ .noted .forgetSize :: last))
  | counted (first : List (Mark τ)) {m : SizeMemo τ} {now : τ} {n : Nat} (before : now ≤ hi)
      (hfirst : first.all Mark.spares = true) : Careful lo hi (first ++ [.recalled m,
        .committed (.countLive now) n, .noted (.keepSize m.generation n now)])

variable {listens : Desk τ → Desk τ → Prop} {d d' : Desk τ} {lo hi : τ}

theorem Desk.Dated.congr (dated : d.Dated lo) (table : d'.table = d.table)
    (memo : d'.memo = d.memo) : d'.Dated lo :=
  ⟨table ▸ dated.stamped, fun n at' h => dated.counted n at' (memo ▸ h)⟩

theorem Does.recounted {m : SizeMemo τ} {now : τ} {n : Nat} (h : Does listens [.recalled m,
    .committed (.countLive now) n, .noted (.keepSize m.generation n now)] d d') :
    d'.table = d.table ∧ d'.memo = ⟨d.memo.generation, some (n, now)⟩ ∧
      n = (d.table.live now).size := by
  obtain ⟨d₁, ⟨rfl, rfl⟩, d₂, ⟨t, hcommit, rfl⟩, d₃, rfl, rfl⟩ := h
  have htable : t = d₁.table := Transaction.commit_spared rfl hcommit
  exact ⟨htable, if_pos rfl, Transaction.reply_countLive hcommit⟩

/-- Careful marks keep the counted size up. -/
theorem Careful.upkeep {ms : List (Mark τ)} (h : Careful lo hi ms)
    (silent : ∀ d d', listens d d' → d' = d) (does : Does listens ms d d') (hle : lo ≤ hi)
    (dated : d.Dated lo) : d'.Dated hi ∧ d.Upkeep d' := by
  cases h with
  | spared spared =>
    obtain ⟨htable, hmemo⟩ := does.spared silent spared
    exact ⟨(dated.congr htable hmemo).mono hle, .same htable hmemo⟩
  | @moved key row now rest after before live spared =>
    obtain ⟨d₁, ⟨t, hfetch, rfl⟩, d₂, rfl, d₃, ⟨t', htouch, rfl⟩, hrest⟩ := does
    obtain ⟨htable, hmemo⟩ := hrest.spared silent spared
    obtain rfl : t = d.table := Transaction.commit_spared rfl hfetch
    have hfound := (Transaction.reply_fetch hfetch).symm
    have hnow : d.Dated now := dated.mono after
    have hlater : d.Dated hi := dated.mono hle
    refine ⟨⟨?_, fun n at' counted => hlater.counted n at' (hmemo ▸ counted)⟩,
      .counts_same hmemo hnow (fun at' earlier => ?_) fun hempty => ?_⟩
    · rw [htable]
      exact Transaction.stamped_commit htouch before hlater.stamped
    · rw [htable]
      exact Transaction.size_live_touch htouch hfound live hnow.stamped earlier
    · rw [hempty] at hfound
      cases hfound
  | forgotten first between stamps hfirst hbetween hlast =>
    obtain ⟨d₁, hdoes₁, d₂, ⟨t, hcommit, rfl⟩, hmore⟩ := does_append.1 does
    obtain ⟨d₃, hdoes₃, d₄, rfl, hdoes₄⟩ := does_append.1 hmore
    obtain ⟨htable₁, hmemo₁⟩ := hdoes₁.spared silent hfirst
    obtain ⟨htable₃, hmemo₃⟩ := hdoes₃.spared silent hbetween
    obtain ⟨htable₄, hmemo₄⟩ := hdoes₄.spared silent hlast
    have htable : d'.table = t := htable₄.trans htable₃
    have hmemo : d'.memo = ⟨d.memo.generation + 1, none⟩ := by
      rw [hmemo₄, ← hmemo₁]
      exact congrArg (fun m : SizeMemo τ => SizeMemo.mk (m.generation + 1) none) hmemo₃
    refine ⟨⟨?_, fun n at' counted => ?_⟩, .forgotten ?_ ?_⟩
    · rw [htable]
      exact Transaction.stamped_commit hcommit stamps (htable₁ ▸ (dated.mono hle).stamped)
    · rw [hmemo] at counted
      cases counted
    · rw [hmemo]
    · rw [hmemo]
      exact Nat.lt_succ_self _
  | @counted first m now n before hfirst =>
    obtain ⟨d₁, hdoes₁, hmore⟩ := does_append.1 does
    obtain ⟨htable₁, hmemo₁⟩ := hdoes₁.spared silent hfirst
    obtain ⟨htable, hmemo, hn⟩ := hmore.recounted
    have hsize (n' : Nat) (at' : τ) (counted : d'.memo.counted = some (n', at')) :
        n' = n ∧ at' = now := by
      rw [hmemo] at counted
      obtain ⟨rfl, rfl⟩ := Prod.mk.inj (Option.some.inj counted)
      exact ⟨rfl, rfl⟩
    refine ⟨⟨?_, fun n' at' counted => ?_⟩, .counted (htable.trans htable₁) ?_
      fun n' at' counted => ?_⟩
    · rw [htable, htable₁]
      exact (dated.mono hle).stamped
    · obtain ⟨rfl, rfl⟩ := hsize n' at' counted
      exact before
    · rw [hmemo, hmemo₁]
    · obtain ⟨rfl, rfl⟩ := hsize n' at' counted
      rw [htable]
      exact hn

/-! ## Calls -/

theorem Answer.count_injective : Function.Injective Answer.count :=
  fun _ _ h => Int.ofNat.inj (Value.int.inj (Answer.value.inj h))

namespace Call

variable {t : Trail τ} {r : Except Failure Answer}

theorem careful_of_marks {ms : List (Mark τ)} (ht : t.marks = ms) (h : Careful lo hi ms) :
    Careful lo hi t.marks := ht ▸ h

theorem careful_of_spared {ms : List (Mark τ)} (ht : t.marks = ms)
    (spared : ms.all Mark.spares = true) : Careful lo hi t.marks :=
  careful_of_marks ht (.spared spared)

/-- Refused arguments leave no marks; what remains is what follows checked ones. -/
theorem Vetted.careful {α : Type} {x : Except Failure α} {rest : α → Prop}
    (h : Vetted x t r rest) (hrest : ∀ a, rest a → Careful lo hi t.marks) :
    Careful lo hi t.marks := by
  rcases h.cases with ⟨f, -, rfl, -⟩ | ⟨a, -, h⟩
  · exact .spared rfl
  · exact hrest a h

/-- All readings on a trail lie between two instants. -/
def ReadsWithin (lo hi : τ) (ms : List (Mark τ)) : Prop :=
  ∀ now, .read now ∈ ms → lo ≤ now ∧ now ≤ hi

theorem LooksUp.careful {k : Key} {refresh : Bool} {target : Option Target}
    (h : LooksUp k refresh target t r) (readings : ReadsWithin lo hi t.marks) :
    Careful lo hi t.marks := by
  have htouched {row : Row τ} {now : τ} {touched last : List (Mark τ)}
      (live : row.isExpired now = false) (touch : Touched k refresh row now t.troubles touched)
      (hlast : last.all Mark.spares = true)
      (marks : t.marks = [.committed (.fetch k.text) (some row), .read now] ++ touched ++ last) :
      Careful lo hi t.marks := by
    obtain ⟨hlo, hhi⟩ := readings now (by simp [marks])
    refine careful_of_marks marks ?_
    cases touch with
    | moved => exact .moved hlo hhi live hlast
    | still | missed => exact .spared hlast
  cases h with
  | missing marks => exact careful_of_spared marks rfl
  | @expired row now swept dead sweep marks =>
    refine careful_of_marks marks ?_
    cases sweep with
    | removed => exact .forgotten [_, _] [] trivial rfl rfl rfl
    | gone => exact .spared rfl
    | missed => exact .spared rfl
  | found live touch decodes marks => exact htouched live touch rfl marks
  | undecodable live touch fails marks =>
    exact htouched live touch rfl (by rw [marks, List.append_nil])

/-- Rows that are written run from the reading. -/
theorem start_rowOf (payload : Json) (ttl : Option Int) (policy : Policy) (now : τ) :
    (Operation.rowOf payload ttl policy now).lifetime.start = now := Row.start_stamped rfl rfl

theorem Inserts.careful {w : Written} {value : Value} {left : Nat} {ms : List (Mark τ)}
    (h : Inserts w value left ms r) (readings : ReadsWithin lo hi ms) (before : List (Mark τ))
    (spared : before.all Mark.spares = true) : Careful lo hi (before ++ ms) := by
  induction h generalizing before with
  | unsettled =>
    rw [List.append_nil]
    exact .spared spared
  | @inserted left now told announced =>
    have hread := readings now (List.mem_append_left _ List.mem_cons_self)
    have hfirst : (before ++ [Mark.read now]).all Mark.spares = true := by
      simp [spared, Mark.spares]
    have hcareful : Careful lo hi _ := .forgotten (a := .writeIfAbsent w.key.text (w.row now) now)
      (r := .inserted) _ [.noted (.record .puts 1)] ?_ hfirst rfl
      (all_spares_of_announced announced)
    · simpa using hcareful
    · exact (start_rowOf ..).trans_le hread.2
  | present left now row =>
    refine .spared ?_
    simp [spared, Mark.spares, Transaction.spares, Transaction.isQuiet]
  | @neither left now ms r rest ih =>
    let tried : Transaction τ := .writeIfAbsent w.key.text (w.row now) now
    have hmore : before ++ .read now :: .committed tried .neither :: ms =
        (before ++ [.read now, .committed tried .neither]) ++ ms := by simp
    rw [hmore]
    refine ih (fun n mem => readings n ?_) _ ?_
    · exact List.mem_cons_of_mem _ (List.mem_cons_of_mem _ mem)
    · simp [spared, tried, Mark.spares, Transaction.spares, Transaction.isQuiet]

/-- What is left of the removal of keys is careful, if nothing was removed where no key is named. -/
theorem careful_of_removed {a : Transaction τ} {reply : a.Reply} {keys : List String}
    {ms : List (Mark τ)} (h : Removed keys ms) (stamps : a.StampsBy hi)
    (vain : keys = [] → a.spares reply = true) : Careful lo hi (.committed a reply :: ms) := by
  cases h with
  | none => exact .spared (by simp [Mark.spares, vain rfl])
  | some any announced =>
    exact .forgotten [] [.noted (.record .evictions _)] stamps rfl rfl
      (all_spares_of_announced announced)

/-- Every account is of careful marks. -/
theorem Accounts.careful {c : Config τ} {call : Call} (h : Accounts c call t r)
    (readings : ReadsWithin lo hi t.marks) : Careful lo hi t.marks := by
  cases call with
  | get key refresh target => exact Vetted.careful h fun k hrest => hrest.careful readings
  | containsKey key =>
    refine Vetted.careful h fun k hrest => ?_
    obtain ⟨now, b, marks, -⟩ := hrest
    exact careful_of_spared marks rfl
  | getAll keys target =>
    refine Vetted.careful h fun ks hrest => ?_
    split at hrest
    · exact careful_of_spared hrest.1 rfl
    · obtain ⟨rows, now, hrest⟩ := hrest
      split at hrest
      · refine careful_of_spared hrest.2 ?_
        unfold tallied
        split <;> split <;> rfl
      · exact careful_of_spared hrest.2 rfl
  | getKeys pattern =>
    refine Vetted.careful h fun g hrest => ?_
    obtain ⟨now, keys, marks, -⟩ := hrest
    exact careful_of_spared marks rfl
  | getAllKeys =>
    obtain ⟨now, keys, marks, -⟩ := h
    exact careful_of_spared marks rfl
  | getRemainingTtl key =>
    refine Vetted.careful h fun k hrest => ?_
    rcases hrest with ⟨deeds, hfetched, marks, -⟩ | ⟨row, deeds, now, hfetched, marks, -⟩
    · cases hfetched <;> exact careful_of_spared marks rfl
    · cases hfetched
      exact careful_of_spared marks rfl
  | getTtlPolicy key =>
    refine Vetted.careful h fun k hrest => ?_
    obtain ⟨deeds, found, hfetched, marks, -⟩ := hrest
    cases hfetched <;> exact careful_of_spared marks rfl
  | size =>
    replace h : Sizes c t r := h
    cases h with
    | recalled counted fresh marks => exact careful_of_spared marks rfl
    | @counted now m₀ m n stale marks =>
      have hread := readings now (by simp [marks])
      exact careful_of_marks marks (.counted [_, _] hread.2 rfl)
  | put key value ttl policy =>
    refine Vetted.careful h fun w hrest => ?_
    obtain ⟨now, told, announced, marks, -⟩ := hrest
    have hread := readings now (by simp [marks])
    refine careful_of_marks marks (.forgotten [_] [.noted (.record .puts 1)]
      (fun p mem => ?_) rfl rfl (all_spares_of_announced announced))
    obtain rfl := List.mem_singleton.1 mem
    exact (start_rowOf ..).trans_le hread.2
  | putIfAbsent key value ttl policy =>
    exact Vetted.careful h fun w hrest => Inserts.careful hrest readings [] rfl
  | putAll entries ttl policy =>
    refine Vetted.careful h fun w hrest => ?_
    split at hrest
    · obtain ⟨now, told, announced, marks, -⟩ := hrest
      have hread := readings now (by simp [marks])
      refine careful_of_marks marks (.forgotten [_] [.noted (.record .puts _)]
        (fun p mem => ?_) rfl rfl (all_spares_of_announced announced))
      obtain ⟨e, -, rfl⟩ := List.mem_map.1 mem
      exact (start_rowOf ..).trans_le hread.2
    · exact careful_of_spared hrest.1 rfl
  | refreshTtl key ttl policy =>
    refine Vetted.careful h fun w hrest => ?_
    obtain ⟨now, b, marks, -⟩ := hrest
    have hread := readings now (by simp [marks])
    refine careful_of_marks marks ?_
    cases b with
    | true => exact .forgotten [_] [] hread.2 rfl rfl rfl
    | false => exact .spared rfl
  | evict key =>
    refine Vetted.careful h fun k hrest => ?_
    rcases hrest with ⟨marks, -⟩ | ⟨told, announced, marks, -⟩
    · exact careful_of_spared marks rfl
    · exact careful_of_marks marks (.forgotten [] [.noted (.record .evictions 1)]
        trivial rfl rfl (all_spares_of_announced announced))
  | evictAll keys =>
    refine Vetted.careful h fun ks hrest => ?_
    split at hrest
    · exact careful_of_spared hrest.1 rfl
    · obtain ⟨removed, told, hremoved, marks, -⟩ := hrest
      refine careful_of_marks marks (careful_of_removed hremoved trivial ?_)
      rintro rfl
      rfl
  | evictByPattern pattern =>
    refine Vetted.careful h fun g hrest => ?_
    obtain ⟨removed, told, hremoved, marks, -⟩ := hrest
    refine careful_of_marks marks (careful_of_removed hremoved trivial ?_)
    rintro rfl
    rfl
  | clear =>
    obtain ⟨n, told, announced, marks, -⟩ := h
    refine careful_of_marks marks (.forgotten [] _ trivial rfl ?_
      (all_spares_of_announced announced))
    split <;> rfl
  | cleanupExpired =>
    obtain ⟨now, n, -, marks⟩ := h
    refine careful_of_marks marks ?_
    split
    · exact .forgotten [_] [] trivial rfl rfl rfl
    · next hnone =>
      obtain rfl : n = 0 := by omega
      exact .spared rfl

/-- However a call concludes, it has left careful marks. -/
theorem Concludes.careful [Delay τ] {c : Config τ} {call : Call} (h : Concludes c call t r)
    (readings : ReadsWithin lo hi t.marks) : Careful lo hi t.marks := by
  rcases h with ⟨f, -, idle, -⟩ | haccount
  · exact .spared (all_spares_of_isIdle idle)
  · exact haccount.careful readings

/-- The size that a call has answered is kept. -/
theorem Sizes.kept {c : Config τ} {n : Nat} (h : Sizes c t (.ok (.count n)))
    (does : Does listens t.marks d d') : ∃ at', d'.memo.counted = some (n, at') := by
  generalize hr : (.ok (.count n) : Except Failure Answer) = r at h
  cases h with
  | @recalled now at' m n' counted fresh marks =>
    obtain rfl : n = n' := Answer.count_injective (Except.ok.inj hr)
    rw [marks] at does
    obtain ⟨d₁, rfl, d₂, ⟨rfl, rfl⟩, rfl⟩ := does
    exact ⟨at', counted⟩
  | @counted now m₀ m n' stale marks =>
    obtain rfl : n = n' := Answer.count_injective (Except.ok.inj hr)
    rw [marks] at does
    obtain ⟨d₁, rfl, d₂, ⟨-, rfl⟩, hcounted⟩ := does
    exact ⟨now, congrArg SizeMemo.counted hcounted.recounted.2.1⟩

end Call

end

end ExpiringStore
