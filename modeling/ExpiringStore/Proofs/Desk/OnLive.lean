import ExpiringStore.Proofs.Desk.Hearing
import ExpiringStore.Proofs.Desk.Station
import ExpiringStore.Proofs.Table.Live
import ExpiringStore.Proofs.Call.LiveValues

/-!
# Calls see what is live

Rows that have expired are as good as none.  What a call answers, what it adds to the counters of
hits, misses and puts, and what it does to the live part of the table depend on the live part alone.

    onLive c now l call      what a call answers where l is what is live
    tally c now l call       what it adds to the counters
    Leaves c now call l l'   what it leaves of what is live
    a call that a station carries out shows all this of the live part of its table     (shows)
-/

namespace ExpiringStore

variable {τ σ : Type}

/-- How much was found, missed and written. -/
@[ext] structure Score where
  found : Int := 0
  missed : Int := 0
  written : Int := 0

namespace Score

instance : Add Score := ⟨fun a b => ⟨a.found + b.found, a.missed + b.missed, a.written + b.written⟩⟩

theorem add_eq (a b : Score) :
    a + b = ⟨a.found + b.found, a.missed + b.missed, a.written + b.written⟩ := rfl

@[simp] theorem add_nothing (a : Score) : a + {} = a := by simp [add_eq]

end Score

/-- What the counters say of these. -/
def Statistics.score (s : Statistics) : Score := ⟨s.hits, s.misses, s.puts⟩

/-- What an entry in the books adds to it. -/
def Statistics.Counter.score (n : Int) : Statistics.Counter → Score
  | .hits => { found := n }
  | .misses => { missed := n }
  | .puts => { written := n }
  | .evictions => {}

theorem Statistics.score_record (s : Statistics) (counter : Statistics.Counter) (n : Int) :
    (s.record counter n).score = s.score + counter.score n := by
  cases counter <;> simp [score, record, Counter.score, Score.add_eq]

namespace Call

variable [OrderedInstant τ]

def lookUpLive (l : Table τ) (target : Option Target) (k : Key) : Except Failure Answer :=
  match l.find? k.text with
  | none => .ok (.lookup .miss)
  | some row => (Payload.decode row.payload.value target (some k)).map (.lookup ∘ .ofDecoded)

def valuesLive (now : τ) (l : Table τ) (target : Option Target) (ks : List Key) :
    Except Failure (List (String × Value)) :=
  liveValues target now (l.select fun k _ => (ks.map (·.text)).contains k)

/-- Whether a write is kept can be told from its lifetime. -/
def kept {α : Type} (a : Transaction τ) (answer : Except Failure α) : Except Failure α :=
  if a.isStorable then answer else .error .integerTooLarge

/-- What a call answers where these are the live rows.  Nothing is said of removals, which may
concern rows that have expired as well. -/
def onLive (c : Config τ) (now : τ) (l : Table τ) : Call → Except Failure Answer
  | .get key _ target => (Arguments.key key "get").bind (lookUpLive l target)
  | .containsKey key => (Arguments.key key "contains_key").map fun k =>
      .bool (l.find? k.text).isSome
  | .getAll keys target => (Arguments.keys keys "get_all").bind fun ks =>
      (valuesLive now l target ks).map fun found =>
        .found (ks.filterMap fun k => (found.lookup k.text).map (k, ·))
  | .getKeys pattern => (Arguments.pattern pattern "get_keys").map fun g =>
      .texts (Transaction.keysWhere l fun k _ => Like.selects (likeOfGlob g) k)
  | .getAllKeys => .ok (.texts l.keys)
  | .getRemainingTtl key => (Arguments.key key "get_remaining_ttl").bind fun k =>
      match l.find? k.text with
      | none => .ok (.optional .duration none)
      | some row =>
        ((row.lifetime.remainingDuration now).mapError .duration).map (.optional .duration)
  | .getTtlPolicy key => (Arguments.key key "get_ttl_policy").map fun k =>
      .optional Policy.toValue ((l.find? k.text).map fun row => Policy.ofStored row.policy)
  | .size => .ok (.count l.size)
  | .put key value ttl policy => (Arguments.written c "put" key value ttl policy).bind fun w =>
      kept (.write [(w.key.text, w.row now)]) (.ok .nothing)
  | .putIfAbsent key value ttl policy =>
      (Arguments.written c "put_if_absent" key value ttl policy).bind fun w =>
        kept (.writeIfAbsent w.key.text (w.row now) now) (lookUpLive l none w.key)
  | .putAll entries ttl policy => (Arguments.writtenMany c entries ttl policy).bind fun w =>
      kept (.write (w.rows now)) (.ok (.count w.entries.length))
  | .refreshTtl key ttl policy => (Arguments.renewal key ttl policy).bind fun w =>
      kept (.extend w.key.text w.ttl w.policy now) (.ok (.bool (l.find? w.key.text).isSome))
  | .evict _ | .evictAll _ | .evictByPattern _ | .clear | .cleanupExpired => .ok .nothing

/-- Does the answer to a call depend on what is live alone?  A pattern that is too long may be tried
against a row that has expired, and a size may have been counted before. -/
def IsAboutLive (c : Config τ) : Call → Prop
  | .getKeys pattern => ∀ g, Arguments.pattern pattern "get_keys" = .ok g →
      (likeOfGlob g).utf8ByteSize ≤ Like.longest
  | .size => c.sizeWindow = Instant.ofSeconds 0
  | .evict _ | .evictAll _ | .evictByPattern _ | .clear | .cleanupExpired => False
  | _ => True

/-- What a call adds to the counters where these are the live rows. -/
def tally (c : Config τ) (now : τ) (l : Table τ) (call : Call) : Score :=
  match call, call.onLive c now l with
  | .get _ _ _, .ok (.lookup .miss) => { missed := 1 }
  | .get _ _ _, .ok _ => { found := 1 }
  | .getAll keys target, .ok _ =>
    match (Arguments.keys keys "get_all").bind fun ks =>
      (valuesLive now l target ks).map fun found => (ks.length, found.length) with
    | .ok (asked, found) => { found, missed := asked - found }
    | .error _ => {}
  | .put _ _ _ _, .ok _ => { written := 1 }
  | .putIfAbsent _ _ _ _, .ok (.lookup .miss) => { written := 1 }
  | .putAll _ _ _, .ok (.value (.int n)) => { written := n }
  | _, _ => {}

/-- The transaction by which a call changes what is live, if it does. -/
def acts (c : Config τ) (now : τ) (l : Table τ) : Call → Option (Transaction τ)
  | .get key refresh _ => (Arguments.key key "get").toOption.bind fun k =>
      (l.find? k.text).bind fun row =>
        if refresh && row.slides then some (.touch k.text now) else none
  | .put key value ttl policy =>
      (Arguments.written c "put" key value ttl policy).toOption.map fun w =>
        .write [(w.key.text, w.row now)]
  | .putIfAbsent key value ttl policy =>
      (Arguments.written c "put_if_absent" key value ttl policy).toOption.map fun w =>
        .writeIfAbsent w.key.text (w.row now) now
  | .putAll entries ttl policy =>
      (Arguments.writtenMany c entries ttl policy).toOption.map fun w => .write (w.rows now)
  | .refreshTtl key ttl policy => (Arguments.renewal key ttl policy).toOption.map fun w =>
      .extend w.key.text w.ttl w.policy now
  | .evict key => (Arguments.key key "evict").toOption.map fun k => .remove k.text
  | .evictAll keys => (Arguments.keys keys "evict_all").toOption.map fun ks =>
      .removeMany (ks.map (·.text))
  | .evictByPattern pattern => (Arguments.pattern pattern "evict_by_pattern").toOption.map fun g =>
      .removeMatching (likeOfGlob g)
  | .clear => some .removeEvery
  | .containsKey _ | .getAll _ _ | .getKeys _ | .getAllKeys | .getRemainingTtl _ | .getTtlPolicy _
  | .size | .cleanupExpired => none

def Leaves (c : Config τ) (now : τ) (call : Call) (l l' : Table τ) : Prop :=
  match (call.acts c now l).filter Transaction.isStorable with
  | none => l' = l
  | some a => Transaction.Leads now a l l'

theorem Leaves.unique {c : Config τ} {now : τ} {call : Call} {l l₁ l₂ : Table τ}
    (h₁ : call.Leaves c now l l₁) (h₂ : call.Leaves c now l l₂) : l₁ = l₂ := by
  unfold Leaves at h₁ h₂
  cases ha : (call.acts c now l).filter Transaction.isStorable with
  | none =>
    rw [ha] at h₁ h₂
    exact Eq.trans h₁ (Eq.symm h₂)
  | some a =>
    rw [ha] at h₁ h₂
    exact Transaction.Leads.unique h₁ h₂

/-- What is seen of a call: of its answer, of the counters, and of what is live. -/
structure Shown (c : Config τ) (call : Call) (now : τ) (d d' : Desk τ)
    (r : Except Failure Answer) : Prop where
  answer (about : call.IsAboutLive c) : r = call.onLive c now (d.table.live now)
  score : d'.statistics.score = d.statistics.score + call.tally c now (d.table.live now)
  leaves : call.Leaves c now (d.table.live now) (d'.table.live now)

/-! ## Trails that are carried out -/

/-- Marks that lead from one desk to another at an instant, where listeners leave the desk alone. -/
structure Carried (now : τ) (ms : List (Mark τ)) (d d' : Desk τ) : Prop where
  readings (n : τ) (mem : .read n ∈ ms) : n = now
  does : ∃ listens : Desk τ → Desk τ → Prop, (∀ d d', listens d d' → d' = d) ∧ Does listens ms d d'

variable {c : Config τ} {now : τ} {t : Trail τ} {d d' : Desk τ} {ms : List (Mark τ)}
  {r : Except Failure Answer}

namespace Carried

theorem idle (h : Carried now ms d d') (idle : ms.all Mark.isIdle = true) : d' = d := by
  obtain ⟨listens, -, hdoes⟩ := h.does
  exact hdoes.idle idle

theorem read {n : τ} (h : Carried now (.read n :: ms) d d') : n = now ∧ Carried now ms d d' := by
  obtain ⟨listens, silent, d₁, rfl, hrest⟩ := h.does
  exact ⟨h.readings n List.mem_cons_self,
    fun n mem => h.readings n (List.mem_cons_of_mem _ mem), listens, silent, hrest⟩

theorem committed {a : Transaction τ} {r : a.Reply} (h : Carried now (.committed a r :: ms) d d') :
    ∃ t, a.commit d.table = .ok (r, t) ∧ Carried now ms { d with table := t } d' := by
  obtain ⟨listens, silent, d₁, ⟨t, hdone, rfl⟩, hrest⟩ := h.does
  exact ⟨t, hdone, fun n mem => h.readings n (List.mem_cons_of_mem _ mem), listens, silent, hrest⟩

/-- What changes nothing is committed on the table that stays. -/
theorem quiet {a : Transaction τ} {r : a.Reply} (h : Carried now (.committed a r :: ms) d d')
    (quiet : a.isQuiet r = true) : a.commit d.table = .ok (r, d.table) ∧ Carried now ms d d' := by
  obtain ⟨t, hdone, hrest⟩ := h.committed
  obtain rfl : t = d.table := Transaction.commit_quiet quiet hdone
  exact ⟨hdone, hrest⟩

theorem noted {b : Bookkeeping τ} (h : Carried now (.noted b :: ms) d d') :
    Carried now ms (d.note b) d' := by
  obtain ⟨listens, silent, d₁, rfl, hrest⟩ := h.does
  exact ⟨fun n mem => h.readings n (List.mem_cons_of_mem _ mem), listens, silent, hrest⟩

theorem recalled {m : SizeMemo τ} (h : Carried now (.recalled m :: ms) d d') :
    m = d.memo ∧ Carried now ms d d' := by
  obtain ⟨listens, silent, d₁, ⟨hm, rfl⟩, hrest⟩ := h.does
  exact ⟨hm, fun n mem => h.readings n (List.mem_cons_of_mem _ mem), listens, silent, hrest⟩

theorem announced {es : List Event} (h : Carried now ms d d') (announced : Announced es ms) :
    ∃ heard, d' = { d with heard } := by
  obtain ⟨listens, silent, hdoes⟩ := h.does
  exact ⟨_, hdoes.announced silent announced⟩

end Carried

/-! ## Showing what is live -/

theorem Carried.recorded {counter : Statistics.Counter} {n : Int}
    (h : Carried now [.noted (.record counter n)] d d') :
    d'.table = d.table ∧ d'.statistics.score = d.statistics.score + counter.score n := by
  obtain rfl := h.noted.idle rfl
  exact ⟨rfl, Statistics.score_record ..⟩

omit [OrderedInstant τ] in
theorem tally_of_error [OrderedInstant τ] {c : Config τ} {now : τ} {l : Table τ} {call : Call}
    {f : Failure} (h : call.onLive c now l = .error f) : call.tally c now l = {} := by
  unfold tally
  rw [h]
  cases call <;> rfl

theorem Shown.of_same {call : Call} (htable : d'.table.live now = d.table.live now)
    (hacts : (call.acts c now (d.table.live now)).filter Transaction.isStorable = none)
    (hscore : d'.statistics.score = d.statistics.score + call.tally c now (d.table.live now))
    (answer : call.IsAboutLive c → r = call.onLive c now (d.table.live now)) :
    Shown c call now d d' r := by
  refine ⟨answer, hscore, ?_⟩
  unfold Leaves
  rw [hacts]
  exact htable

/-- A call that leaves the desk as it is and adds nothing to the counters. -/
theorem Shown.of_idle {call : Call} (hd : d' = d)
    (hacts : (call.acts c now (d.table.live now)).filter Transaction.isStorable = none)
    (htally : call.tally c now (d.table.live now) = {})
    (answer : call.IsAboutLive c → r = call.onLive c now (d.table.live now)) :
    Shown c call now d d' r := by
  subst hd
  exact .of_same rfl hacts (by rw [htally, Score.add_nothing]) answer

theorem Shown.of_commit {call : Call} {a : Transaction τ} {reply : a.Reply}
    (hacts : call.acts c now (d.table.live now) = some a) (storable : a.isStorable = true)
    (hat : a.IsAt now d.table) (hdone : a.commit d.table = .ok (reply, d'.table))
    (hscore : d'.statistics.score = d.statistics.score + call.tally c now (d.table.live now))
    (answer : call.IsAboutLive c → r = call.onLive c now (d.table.live now)) :
    Shown c call now d d' r := by
  refine ⟨answer, hscore, ?_⟩
  unfold Leaves
  rw [hacts, Option.filter_some, if_pos storable]
  exact Transaction.leads_commit hat hdone

/-- A call that is refused for its arguments leaves everything as it is. -/
theorem Vetted.shown_of {α : Type} {x : Except Failure α} {call : Call} {rest : α → Prop}
    (h : Vetted x t r rest) (hc : Carried now t.marks d d')
    (refused : ∀ f, x = .error f →
      (call.acts c now (d.table.live now)).filter Transaction.isStorable = none ∧
      call.tally c now (d.table.live now) = {} ∧
      (call.IsAboutLive c → call.onLive c now (d.table.live now) = .error f))
    (hrest : ∀ a, x = .ok a → rest a → Shown c call now d d' r) : Shown c call now d d' r := by
  cases x with
  | ok a => exact hrest a rfl h
  | error f =>
    obtain ⟨rfl, rfl⟩ := h
    obtain ⟨hacts, htally, hlive⟩ := refused f rfl
    exact .of_idle (hc.idle rfl) hacts htally fun about => (hlive about).symm

/-- A call that fails on what is live if its arguments are refused. -/
theorem Vetted.shown {α : Type} {x : Except Failure α} {call : Call} {rest : α → Prop}
    (h : Vetted x t r rest) (hc : Carried now t.marks d d')
    (refused : ∀ f, x = .error f →
      (call.acts c now (d.table.live now)).filter Transaction.isStorable = none ∧
      call.onLive c now (d.table.live now) = .error f)
    (hrest : ∀ a, x = .ok a → rest a → Shown c call now d d' r) : Shown c call now d d' r :=
  h.shown_of hc (fun f hf => ⟨(refused f hf).1, tally_of_error (refused f hf).2,
    fun _ => (refused f hf).2⟩) hrest

end Call

end ExpiringStore
