import ExpiringStore.Proofs.Lifecycle.Facility
import ExpiringStore.Proofs.Premises.Site
import ExpiringStore.Store.Health

/-!
# The counted size on the premises

A store on its premises gets one request after another: it is started, stopped, asked for something,
or its health is checked.  What it has counted describes the table, whatever the requests were,
unless a shutdown has let go of a database in memory since, and with it of rows that were counted;
then the counted size is not forgotten, and lasts until the next change of the table or the end of
its window.

    Describes (after requests)   ↔   no shutdown among them has taken counted rows away
    a table that lasts, or a database that is shared    →   Describes (after requests)
    size answers n             →   n is kept, and it is right under the same condition
                                                                       (counted_size_describes)
-/

namespace ExpiringStore

variable {τ σ : Type}

/-! ## Requests -/

/-- What a store is asked to do. -/
inductive Request where
  | errand (errand : Errand)
  | ping
  | tableExists
  | checkHealth

namespace Request

def program [Instant τ] [Delay τ] (c : Config τ) : Request → Operation τ Unit
  | errand e => discard (e.program c)
  | ping => discard (Operation.ping c)
  | tableExists => discard Operation.tableExists
  | checkHealth => discard (Operation.checkHealth c)

end Request

namespace Premises

variable [MonotoneInstant τ] [Delay τ] {P : Premises τ σ} (c : Config τ)

theorem tends_ping : P.Tends (Operation.ping c) := by
  refine tends_bind (tends_of_asks (Operation.asks_transact c (fun s => ?_)
    (fun entry => keeps_formal _ rfl) fun length s => ?_)) fun _ => tends_done _
  · have hdoes := P.lawful (.attempt .probe) s rfl
    cases hr : (P.handle (.attempt .probe) s).1 with
    | error f =>
      rw [hr] at hdoes
      replace hdoes : P.desk (P.handle (.attempt .probe) s).2 = P.desk s := hdoes
      exact .same (by rw [hdoes]) (by rw [hdoes]) (P.latest_le _ s)
    | ok r =>
      rw [hr] at hdoes
      obtain ⟨t, hcommit, hdesk⟩ := hdoes
      have htable := Transaction.commit_spared rfl hcommit
      exact .same (by rw [hdesk, ← htable]) (by rw [hdesk]) (P.latest_le _ s)
  · have hdesk : P.desk (P.handle (.pause length) s).2 = P.desk s := P.lawful (.pause length) s rfl
    exact .same (by rw [hdesk]) (by rw [hdesk]) (P.latest_le _ s)

omit [Delay τ] in
theorem tends_checked {event : String} {check : Operation τ Bool} (h : P.Tends check) :
    P.Tends (Operation.checked event check) := by
  refine tends_tryCatch h fun f => ?_
  cases f with
  | complaint x =>
    exact tends_bind (tends_of_asks (Operation.asks_perform (keeps_formal _ rfl))) fun _ =>
      tends_done false
  | _ => exact tends_throw _

/-- A check of health puts an entry, looks it up and evicts it, and counts the entries. -/
theorem tends_checkHealth : P.Tends (Operation.checkHealth c) := by
  have hput := tends_map_iff.1 (tends_call (P := P) c
    (.put (.str Operation.probeKey) (.str "ok") (.int 10) Policy.absolute.toValue))
  have hget := tends_map_iff.1 (tends_call (P := P) c (.get (.str Operation.probeKey) false))
  have hevict := tends_map_iff.1 (tends_call (P := P) c (.evict (.str Operation.probeKey)))
  have hsize := tends_map_iff.1 (tends_call (P := P) c .size)
  refine tends_bind (tends_startup c) fun _ => ?_
  refine tends_bind (tends_checked (tends_ping c)) fun _ => ?_
  refine tends_bind (tends_checked ?_) fun cache => ?_
  · refine tends_bind hput fun _ => tends_bind hget fun _ => ?_
    exact tends_bind (tends_map_iff.2 hevict) fun _ => tends_done _
  · split
    · exact tends_bind hsize fun _ => tends_done _
    · exact tends_done _

/-- All but a shutdown keeps the counted size up. -/
theorem tends_request {r : Request} (other : r ≠ .errand .shutdown) : P.Tends (r.program c) := by
  cases r with
  | errand e =>
    refine tends_map_iff.2 ?_
    cases e with
    | startup => exact tends_map_iff.2 (tends_startup c)
    | shutdown => exact absurd rfl other
    | call asked => exact tends_call c asked
  | ping => exact tends_map_iff.2 (tends_ping c)
  | tableExists => exact tends_map_iff.2 tends_tableExists
  | checkHealth => exact tends_map_iff.2 (tends_checkHealth c)

/-- What a request leaves: the counted size is kept up, or a shutdown takes all rows away. -/
inductive Leaves (c : Config τ) (s : σ) (r : Request) (s' : σ) : Prop
  | kept (keeps : P.Keeps s s')
  | emptied (shutdown : r = .errand .shutdown) (owns : c.ownsDatabase = true)
      (brief : P.lasting = false) (later : P.latest s ≤ P.latest s')
      (desk : P.desk s' = { P.desk s with table := .empty })

theorem carry_shutdown (s : σ) : (P.carry (Request.program c (.errand .shutdown)) s).2 =
    (P.carry (Operation.shutdown c) s).2 := by
  show (P.carry ((fun _ => ()) <$> (fun _ => Answer.nothing) <$> Operation.shutdown c) s).2 = _
  rw [carry_map, carry_map]

theorem leaves_request (s : σ) (r : Request) : P.Leaves c s r (P.carry (r.program c) s).2 := by
  by_cases hv : r = .errand .shutdown
  · subst hv
    rw [carry_shutdown]
    cases sheds_shutdown (P := P) c s with
    | kept later desk => exact .kept (.same (by rw [desk]) (by rw [desk]) later)
    | emptied owns brief later desk => exact .emptied rfl owns brief later desk
  · exact .kept (tends_request c hv s)

/-! ## One request after another -/

section
variable (P) (s : σ)

def after (requests : List Request) : σ := requests.foldl (fun s r => (P.carry (r.program c) s).2) s

def deskAfter (requests : List Request) : Desk τ := P.desk (P.after c s requests)

/-- Nothing has been counted yet, and the rows that are there have been there before. -/
structure Unused : Prop where
  uncounted : (P.desk s).memo.counted = none
  stamped : (P.desk s).table.Stamped (P.latest s)

/-- A shutdown between requests has taken rows away, and a size that was counted before is kept. -/
structure Outdates (earlier later : List Request) : Prop where
  emptied : (P.deskAfter c s (earlier ++ [.errand .shutdown])).table ≠
    (P.deskAfter c s earlier).table
  kept : (P.deskAfter c s (earlier ++ .errand .shutdown :: later)).memo =
    (P.deskAfter c s earlier).memo
  some_rows : ∃ n at', (P.deskAfter c s earlier).memo.counted = some (n, at') ∧ n ≠ 0

/-- One of the requests was a shutdown that has outdated the counted size. -/
def Outdated (requests : List Request) : Prop :=
  ∃ earlier later, requests = earlier ++ .errand .shutdown :: later ∧ P.Outdates c s earlier later

theorem after_append (first second : List Request) :
    P.after c s (first ++ second) = P.after c (P.after c s first) second := List.foldl_append

theorem deskAfter_append (first second : List Request) :
    P.deskAfter c s (first ++ second) = P.deskAfter c (P.after c s first) second :=
  congrArg P.desk (after_append P c s first second)

end

variable {c} {s : σ} {requests : List Request}

theorem leaves_last (s : σ) (requests : List Request) (r : Request) :
    P.Leaves c (P.after c s requests) r (P.after c s (requests ++ [r])) := by
  rw [after_append]
  exact leaves_request c _ r

omit [Delay τ] in
theorem Unused.dated (unused : P.Unused s) : P.Dated s :=
  ⟨unused.stamped, fun n at' h => by cases unused.uncounted.symm.trans h⟩

/-- Whatever the requests were, nothing is dated later than now. -/
theorem dated_after (dated : P.Dated s) (requests : List Request) :
    P.Dated (P.after c s requests) := by
  induction requests using List.reverseRecOn with
  | nil => exact dated
  | append_singleton requests r ih =>
    cases leaves_last (P := P) (c := c) s requests r with
    | kept keeps => exact keeps.dated ih
    | emptied _ _ _ later desk =>
      refine ⟨?_, fun n at' counted => ?_⟩
      · rw [desk]
        exact Table.stamped_empty _
      · rw [desk] at counted
        exact (ih.counted n at' counted).trans later

/-- Whatever the requests were, rows came only with another generation. -/
theorem heeds_after (dated : P.Dated s) (requests : List Request) :
    (P.desk s).Heeds (P.deskAfter c s requests) := by
  induction requests using List.reverseRecOn with
  | nil => exact .refl _
  | append_singleton requests r ih =>
    refine ih.trans ?_
    cases leaves_last (P := P) (c := c) s requests r with
    | kept keeps => exact (keeps.upkeep (dated_after dated requests)).toHeeds
    | emptied _ _ _ _ desk =>
      rw [deskAfter, deskAfter, desk]
      exact ⟨le_rfl, fun _ _ => rfl⟩

omit [Delay τ] in
theorem describes_of_empty {d : Desk τ} {n : Nat} {at' : τ} (empty : d.table = .empty)
    (counted : d.memo.counted = some (n, at')) : d.Describes ↔ n = 0 := by
  have hzero (now : τ) : (d.table.live now).size = 0 := by
    rw [empty]
    rfl
  constructor
  · intro h
    exact (h n at' counted).trans (hzero at')
  · rintro rfl n' now counted'
    obtain ⟨rfl, rfl⟩ := Prod.mk.inj (Option.some.inj (counted.symm.trans counted'))
    exact (hzero _).symm

/-- What was outdated is so after more requests, as long as it is kept. -/
theorem Outdated.concat (outdated : P.Outdated c s requests) (r : Request)
    (kept : (P.deskAfter c s (requests ++ [r])).memo = (P.deskAfter c s requests).memo) :
    P.Outdated c s (requests ++ [r]) := by
  obtain ⟨earlier, later, rfl, outdates⟩ := outdated
  have hmore : earlier ++ .errand .shutdown :: (later ++ [r]) =
      earlier ++ .errand .shutdown :: later ++ [r] := by simp
  refine ⟨earlier, later ++ [r], hmore.symm, outdates.emptied, ?_, outdates.some_rows⟩
  rw [hmore, kept]
  exact outdates.kept

/-- After every request the counted size describes the table, or a shutdown has outdated it. -/
theorem describes_or_outdated (unused : P.Unused s) (requests : List Request) :
    (P.deskAfter c s requests).Describes ∨ P.Outdated c s requests := by
  induction requests using List.reverseRecOn with
  | nil => exact .inl (Desk.describes_of_forgotten unused.uncounted)
  | append_singleton requests r ih =>
    cases leaves_last (P := P) (c := c) s requests r with
    | kept keeps =>
      have hupkeep := keeps.upkeep (dated_after unused.dated requests)
      rcases ih with describes | outdated
      · exact .inl (hupkeep.describes describes)
      · exact hupkeep.renewed.symm.imp_right fun kept => outdated.concat r kept
    | emptied shutdown owns brief later desk =>
      replace desk : P.deskAfter c s (requests ++ [r]) = { P.deskAfter c s requests with
        table := .empty } := desk
      have hmemo : (P.deskAfter c s (requests ++ [r])).memo = (P.deskAfter c s requests).memo := by
        rw [desk]
      have htable : (P.deskAfter c s (requests ++ [r])).table = .empty := by rw [desk]
      rcases hcounted : (P.deskAfter c s requests).memo.counted with _ | ⟨n, at'⟩
      · exact .inl (Desk.describes_of_forgotten (hmemo ▸ hcounted))
      by_cases hn : n = 0
      · exact .inl ((describes_of_empty htable (hmemo ▸ hcounted)).2 hn)
      rcases ih with describes | outdated
      · subst shutdown
        refine .inr ⟨requests, [], rfl, fun hsame => hn ?_, hmemo, n, at', hcounted, hn⟩
        exact (describes_of_empty (hsame.symm.trans htable) hcounted).1 describes
      · exact .inr (outdated.concat r hmemo)

/-- A shutdown takes rows away only with an engine of the store's own, and then it takes all. -/
theorem Outdates.desk {earlier later : List Request} (h : P.Outdates c s earlier later) :
    c.ownsDatabase = true ∧ P.lasting = false ∧
      P.deskAfter c s (earlier ++ [.errand .shutdown]) =
        { P.deskAfter c s earlier with table := .empty } := by
  have hdesk : P.deskAfter c s (earlier ++ [.errand .shutdown]) =
      P.desk (P.carry (Operation.shutdown c) (P.after c s earlier)).2 := by
    rw [deskAfter_append, ← carry_shutdown]
    rfl
  cases sheds_shutdown (P := P) c (P.after c s earlier) with
  | kept later desk => exact absurd (congrArg Desk.table (hdesk.trans desk)) h.emptied
  | emptied owns brief later desk => exact ⟨owns, brief, hdesk.trans desk⟩

/-- What a shutdown has outdated does not describe the table. -/
theorem Outdated.not_describes (unused : P.Unused s) (outdated : P.Outdated c s requests) :
    ¬(P.deskAfter c s requests).Describes := by
  obtain ⟨earlier, later, rfl, outdates⟩ := outdated
  obtain ⟨-, -, hthen⟩ := outdates.desk
  obtain ⟨n, at', counted, hn⟩ := outdates.some_rows
  have hheeds := heeds_after (c := c)
    (dated_after (c := c) unused.dated (earlier ++ [.errand .shutdown])) later
  rw [← deskAfter_append, List.append_assoc, List.singleton_append] at hheeds
  replace hheeds : (P.deskAfter c s (earlier ++ [.errand .shutdown])).Heeds _ := hheeds
  rw [hthen] at hheeds
  have hempty := hheeds.vacant (congrArg SizeMemo.generation outdates.kept) rfl
  rw [describes_of_empty hempty (outdates.kept ▸ counted)]
  exact hn

theorem describes_iff (unused : P.Unused s) (requests : List Request) :
    (P.deskAfter c s requests).Describes ↔ ¬P.Outdated c s requests :=
  ⟨fun describes outdated => outdated.not_describes unused describes,
    (describes_or_outdated unused requests).resolve_right⟩

/-- A size that is answered has been kept. -/
theorem kept_size {n : Nat} (answered : (P.carry (Call.size.program c) s).1 = .ok (.count n)) :
    ∃ at', (P.deskAfter c s [.errand (.call .size)]).memo.counted = some (n, at') := by
  have hstate : P.deskAfter c s [.errand (.call .size)] =
      P.desk (P.host.answer c .size s).2 := by
    rw [← carry_call]
    exact congrArg (fun p : Except Failure Unit × σ => P.desk p.2) (carry_map (fun _ => ()) _ s)
  obtain ⟨hconcludes, hdoes⟩ := P.host.answer_concludes c .size s
  rw [carry_call] at answered
  rw [answered] at hconcludes
  rw [hstate]
  rcases hconcludes with ⟨f, hf, -⟩ | haccount
  · cases hf
  · exact Call.Sizes.kept haccount hdoes

/-- The counted size describes the table after any requests, but where a shutdown has taken counted
rows away; and there a size that is answered counts rows that are not there. -/
theorem counted_size_describes (unused : P.Unused s) (requests : List Request) :
    ((P.deskAfter c s requests).Describes ↔ ¬P.Outdated c s requests) ∧
      (P.lasting = true ∨ c.ownsDatabase = false → (P.deskAfter c s requests).Describes) ∧
      ∀ n, (P.carry (Call.size.program c) (P.after c s requests)).1 = .ok (.count n) →
        ∃ at',
          (P.deskAfter c s (requests ++ [.errand (.call .size)])).memo.counted = some (n, at') ∧
          (n = ((P.deskAfter c s (requests ++ [.errand (.call .size)])).table.live at').size ↔
            ¬P.Outdated c s (requests ++ [.errand (.call .size)])) := by
  refine ⟨describes_iff unused requests, fun safe => ?_, fun n answered => ?_⟩
  · refine (describes_iff unused requests).2 fun ⟨earlier, later, _, outdates⟩ => ?_
    obtain ⟨owns, brief, -⟩ := outdates.desk
    rcases safe with lasting | shared
    · cases brief.symm.trans lasting
    · cases owns.symm.trans shared
  · obtain ⟨at', kept⟩ := kept_size answered
    rw [← deskAfter_append] at kept
    refine ⟨at', kept, ?_⟩
    rw [← describes_iff unused]
    constructor
    · rintro hn n' now counted
      obtain ⟨rfl, rfl⟩ := Prod.mk.inj (Option.some.inj (kept.symm.trans counted))
      exact hn
    · exact fun describes => describes n at' kept

/-- A site where nothing has been done yet. -/
def bare : Site Int := { clock := 0, desk := ⟨.empty, {}, {}, []⟩ }

/-- An entry is put, and the size is counted; then the store is stopped and started again. -/
def restart : List Request := [
  .errand (.call (.put (.str "k") (.int 1) .none Policy.absolute.toValue)),
  .errand (.call .size), .errand .shutdown, .errand .startup]

/-- With its table in a file, the store has counted the entry that is there. -/
theorem counted_in_file : (site true).Unused bare ∧
      ((site true).deskAfter .plain bare restart).memo.counted = some (1, 0) ∧
      ((site true).deskAfter .plain bare restart).Describes := by
  have unused : (site true).Unused bare := ⟨rfl, Table.stamped_empty _⟩
  exact ⟨unused, by rfl, (counted_size_describes unused restart).2.1 (.inl rfl)⟩

/-- With its table in memory, the store answers that there is an entry, and there is none. -/
theorem counted_in_memory :
    ((site false).deskAfter .plain bare restart).table = .empty ∧
      ((site false).deskAfter .plain bare restart).memo.counted = some (1, 0) ∧
      ¬((site false).deskAfter .plain bare restart).Describes ∧
      ((site false).carry (Call.size.program .plain)
        ((site false).after .plain bare restart)).1 = .ok (.count 1) := by
  have empty : ((site false).deskAfter .plain bare restart).table = .empty := by rfl
  have counted : ((site false).deskAfter .plain bare restart).memo.counted = some (1, 0) := by rfl
  refine ⟨empty, counted, ?_, by rfl⟩
  rw [describes_of_empty empty counted]
  exact one_ne_zero

end Premises

end ExpiringStore
