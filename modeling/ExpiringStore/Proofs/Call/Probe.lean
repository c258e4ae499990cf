import ExpiringStore.Store.Health
import ExpiringStore.Proofs.Call.Writes

/-!
# What a check of the entries does

A check writes an entry of ten seconds, looks it up and removes it, each time in a transaction of
its own, and says whether the lookup found what it had written.  It is three calls in turn, so what
it may attempt is what the calls may, after what the check has done before them.

    Probes deeds a       a check may attempt a after deeds
    Probed deeds r       a check may end with r after deeds, if no step of the storage failed
    checkCache c         follows Probes and ends as Probed       (follows_checkCache)
-/

namespace ExpiringStore

variable {τ : Type}

/-! ## Programs that come after others -/

namespace Past

/-- One past after another. -/
def append (p q : Past τ) : Past τ := ⟨p.deeds ++ q.deeds, p.smooth && q.smooth⟩

theorem append_smooth (p q : Past τ) : (p.append q).smooth = (p.smooth && q.smooth) := rfl

theorem append_empty (p : Past τ) : p.append {} = p := by
  obtain ⟨deeds, smooth⟩ := p
  simp [append]

theorem append_add (p q : Past τ) (d : Deed τ) : p.append (q.add d) = (p.append q).add d := by
  simp [append, add]

theorem append_spoiled (p q : Past τ) : p.append q.spoiled = (p.append q).spoiled := by
  simp [append, spoiled]

theorem after_append (p q : Past τ) (e : Effect τ) (r : e.Reply) :
    (p.append q).after e r = p.append (q.after e r) := by
  cases e with
  | readClock =>
    cases r with
    | ok now => exact (append_add p q (.read now)).symm
    | error f => exact (append_spoiled p q).symm
  | attempt a =>
    cases r with
    | ok r => exact (append_add p q (.committed a r)).symm
    | error f => exact (append_spoiled p q).symm
  | engine step =>
    show (if step.succeeded r then _ else _) = p.append (if step.succeeded r then _ else _)
    split
    · rfl
    · exact (append_spoiled p q).symm
  | _ => rfl

end Past

/-- A program that follows a rule from a past on still does so after a longer past, if the rule
there permits what it permitted. -/
theorem Program.Follows.after {α : Type} {permits permits' : List (Deed τ) → Transaction τ → Prop}
    {ends ends' : Past τ → α → Prop} {x : Program τ α} {p q : Past τ}
    (hpermits : ∀ deeds a, permits deeds a → permits' (p.deeds ++ deeds) a)
    (hends : ∀ q a, ends q a → ends' (p.append q) a) (h : x.Follows permits ends q) :
    x.Follows permits' ends' (p.append q) := by
  induction x generalizing q with
  | done a => exact hends q a h
  | ask e next ih =>
    obtain ⟨hpermitted, hnext⟩ := h
    refine ⟨?_, fun r => ?_⟩
    · cases e with
      | attempt a => exact hpermits q.deeds a hpermitted
      | _ => trivial
    · rw [Past.after_append]
      exact ih r (hnext r)

theorem Operation.Follows.after {α : Type}
    {permits permits' : List (Deed τ) → Transaction τ → Prop} {ok ok' : Past τ → α → Prop}
    {bad bad' : Past τ → Failure → Prop} {x : Operation τ α} (h : x.Follows permits ok bad {})
    (p : Past τ) (hpermits : ∀ deeds a, permits deeds a → permits' (p.deeds ++ deeds) a)
    (hok : ∀ q a, ok q a → ok' (p.append q) a) (hbad : ∀ q f, bad q f → bad' (p.append q) f) :
    x.Follows permits' ok' bad' p := by
  have hends : ∀ q r, Past.Ends ok bad q r → Past.Ends ok' bad' (p.append q) r := by
    intro q r hr
    cases r with
    | ok a => exact hok q a hr
    | error f => exact hbad q f hr
  have h' := Program.Follows.after hpermits hends h
  rwa [Past.append_empty] at h'

/-! ## The check -/

def probeRow [Instant τ] (now : τ) : Row τ :=
  Operation.rowOf (.object [("v", .str "ok")]) (some 10) .absolute now

def probeWrite [Instant τ] (now : τ) : Transaction τ :=
  .write [(Operation.probeKey, probeRow now)]

namespace Operation

variable [Instant τ]

/-- The transactions that a check may attempt after what it has done. -/
inductive Probes : List (Deed τ) → Transaction τ → Prop
  | write {deeds : List (Deed τ)} {now : τ} (read : .read now ∈ deeds) :
      Probes deeds (probeWrite now)
  | lookUp {deeds : List (Deed τ)} {now : τ} (wrote : .committed (probeWrite now) () ∈ deeds) :
      Probes deeds (.fetch probeKey)
  | expire {deeds : List (Deed τ)} {row : Row τ} {now : τ}
      (fetched : .committed (.fetch probeKey) (some row) ∈ deeds) (read : .read now ∈ deeds)
      (dead : row.isExpired now = true) : Probes deeds (.removeExpiredKey probeKey now)
  | remove {deeds : List (Deed τ)} : Probes deeds (.remove probeKey)

/-- How a check ends: it has written, looked up and removed the entry, or it has looked up a row
that it cannot read. -/
inductive Probed : List (Deed τ) → Except Failure Bool → Prop
  | answered (wrote : τ) {looked : List (Deed τ)} {found : Lookup} (removed : Bool)
      (lookup : Call.LookedUp (.plain probeKey) false none looked (.ok (.lookup found))) :
      Probed ([.read wrote, .committed (probeWrite wrote) ()] ++
          (looked ++ [.committed (.remove probeKey) removed]))
        (.ok (found.getD.same (.str "ok")))
  | undecodable (wrote : τ) {looked : List (Deed τ)} {f : Failure} (r : Except Failure Bool)
      (lookup : Call.LookedUp (.plain probeKey) false none looked (.error f)) :
      Probed ([.read wrote, .committed (probeWrite wrote) ()] ++ looked) r

variable [Delay τ]

/-! The arguments of a check are in order, whatever the settings. -/

omit [Instant τ] [Delay τ] in
theorem written_probe (c : Config τ) :
    Arguments.written c "put" (.str probeKey) (.str "ok") (.int 10) Policy.absolute.toValue =
      .ok ⟨.plain probeKey, some 10, .absolute, .object [("v", .str "ok")]⟩ := rfl

omit [Instant τ] [Delay τ] in
theorem key_probe (operation : String) :
    Arguments.key (.str probeKey) operation = .ok (.plain probeKey) := rfl

section
variable {bad : Past τ → Failure → Prop}

theorem follows_probePut (c : Config τ) {ok : Past τ → Unit → Prop}
    (hok : ∀ now b, ok ⟨[.read now, .committed (probeWrite now) ()], b⟩ ())
    (hbad : ∀ p f, p.smooth = false → bad p f) :
    Follows Probes ok bad (put c (.str probeKey) (.str "ok") (.int 10)) {} := by
  refine (serves_put c _ _ _ _).after {} (fun deeds a makes => ?_) (fun q _ ends => ?_)
    (fun q f ends => ?_)
  · cases makes with
    | @put _ _ _ _ _ w now given read =>
      obtain rfl := Except.ok.inj ((written_probe c).symm.trans given)
      exact .write read
  · obtain ⟨deeds, b⟩ := q
    obtain ⟨now, rfl, -⟩ := ends (.inr ⟨rfl, rfl⟩)
    exact hok now b
  · refine hbad _ f ?_
    -- No put that goes smoothly fails, its arguments being in order.
    cases hs : q.smooth with
    | false => rw [Past.append_smooth, hs, Bool.and_false]
    | true =>
      obtain ⟨now, -, hr⟩ := ends (.inl hs)
      cases hr

theorem follows_probeGet (c : Config τ) {p : Past τ} {now : τ}
    (wrote : .committed (probeWrite now) () ∈ p.deeds) {ok : Past τ → Lookup → Prop}
    (hok : ∀ looked b found, (b = true →
        Call.LookedUp (.plain probeKey) false none looked (.ok (.lookup found))) →
      ok ⟨p.deeds ++ looked, b⟩ found)
    (hbad : ∀ looked b f, (b = true →
        Call.LookedUp (.plain probeKey) false none looked (.error f)) →
      bad ⟨p.deeds ++ looked, b⟩ f) :
    Follows Probes ok bad (get c (.str probeKey) false) p := by
  refine (serves_get c (.str probeKey) false none).after p (fun deeds a makes => ?_)
    (fun q found ends => hok q.deeds _ found fun hb => ?_)
    (fun q f ends => hbad q.deeds _ f fun hb => ?_)
  · cases makes with
    | lookUp given =>
      obtain rfl := Except.ok.inj ((key_probe "get").symm.trans given)
      exact .lookUp (List.mem_append_left _ wrote)
    | expire given fetched read dead =>
      obtain rfl := Except.ok.inj ((key_probe "get").symm.trans given)
      exact .expire (List.mem_append_right _ fetched) (List.mem_append_right _ read) dead
    | touch given fetched read live slides => cases slides
  · exact ends (.inl (Bool.and_eq_true_iff.1 hb).2)
  · exact ends (.inl (Bool.and_eq_true_iff.1 hb).2)

theorem follows_probeEvict (c : Config τ) {p : Past τ} {ok : Past τ → Bool → Prop}
    (hok : ∀ removed b, (b = true → p.smooth = true) →
      ok ⟨p.deeds ++ [.committed (.remove probeKey) removed], b⟩ removed)
    (hbad : ∀ q f, q.smooth = false → bad q f) :
    Follows Probes ok bad (evict c (.str probeKey)) p := by
  refine (serves_evict c (.str probeKey)).after p (fun deeds a makes => ?_)
    (fun q removed ends => ?_) (fun q f ends => ?_)
  · cases makes with
    | evict given =>
      obtain rfl := Except.ok.inj ((key_probe "evict").symm.trans given)
      exact .remove
  · obtain ⟨deeds, b⟩ := q
    obtain ⟨removed', hdeeds, hr⟩ := ends (.inr ⟨rfl, rfl⟩)
    obtain rfl : removed = removed' := by simpa [Answer.bool] using hr
    subst hdeeds
    exact hok removed _ fun hb => (Bool.and_eq_true_iff.1 hb).1
  · refine hbad _ f ?_
    cases hs : q.smooth with
    | false => rw [Past.append_smooth, hs, Bool.and_false]
    | true =>
      obtain ⟨removed, -, hr⟩ := ends (.inl hs)
      cases hr

end

/-- A check attempts only what it may and, if no step of the storage failed, ends as it is to. -/
theorem follows_checkCache (c : Config τ) : Follows Probes
    (fun p b => p.smooth = true → Probed p.deeds (.ok b))
    (fun p f => p.smooth = true → Probed p.deeds (.error f)) (checkCache c) {} := by
  -- What ends the calls early is met in a spoiled past, or it is a row that cannot be read.
  have hchecked : Follows Probes (fun p b => p.smooth = true → Probed p.deeds (.ok b))
      (fun p _ => p.smooth = true → ∀ r, Probed p.deeds r) (do
        put c (.str probeKey) (.str "ok") (.int 10)
        let found ← get c (.str probeKey) false
        discard (evict c (.str probeKey))
        return found.getD.same (.str "ok")) {} := by
    have hspoiled : ∀ (q : Past τ) (f : Failure), q.smooth = false →
        q.smooth = true → ∀ r, Probed q.deeds r := by
      intro q f hs hs'
      rw [hs] at hs'
      cases hs'
    rw [follows_bind]
    refine follows_probePut c (fun now b => ?_) hspoiled
    rw [follows_bind]
    have hwrote : Deed.committed (probeWrite now) () ∈
        [.read now, .committed (probeWrite now) ()] := List.mem_cons_of_mem _ List.mem_cons_self
    refine follows_probeGet c hwrote (fun looked b' found hlookup => ?_)
      (fun looked b' f hlookup hs r => .undecodable now r (hlookup hs))
    rw [follows_bind, follows_discard]
    refine follows_probeEvict c (fun removed b'' hsmooth hs => ?_) hspoiled
    show Probed (([.read now, .committed (probeWrite now) ()] ++ looked) ++ _) _
    rw [List.append_assoc]
    exact .answered now removed (hlookup (hsmooth hs))
  unfold checkCache checked
  rw [follows_tryCatch]
  refine hchecked.mono (fun _ _ h => h) fun p f hf => ?_
  cases f with
  | complaint complaint => exact (follows_bind _ _).2 ((follows_log _).2 fun hs => hf hs _)
  | _ => exact fun hs => hf hs _

end Operation

end ExpiringStore
