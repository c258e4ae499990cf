import ExpiringStore.Proofs.Call.Course
import ExpiringStore.Proofs.Desk.Hearing

/-!
# Mirrors

A listener may keep a map of the store: what was put it keeps under its key, what was evicted it
forgets, and when the store is cleared it forgets everything.  If it listens from the beginning, and
nobody else works on the table, then its map holds the value of every row.  What it holds beyond
that are values whose rows were removed as expired, since nobody is told of those.

    M.after es                             the map after the events es
    Turn k M M' e                          what an operation does to the map and the row of a key
    Runs c s₀ es s   →   the mirror holds the value of each row, and what lapsed      (mirrored)
-/

namespace ExpiringStore

variable {τ σ : Type}

/-! ## What a listener keeps -/

/-- A map of keys, as the table knows them, to values. -/
abbrev Mirror := String → Option Value

namespace Mirror

/-- A listener is told of something. -/
def note (M : Mirror) : Event → Mirror
  | .put k v, key => if key = k.text then some v else M key
  | .evict k, key => if key = k.text then none else M key
  | .clear, _ => none

/-- A listener is told of several things, one after the other. -/
def after (M : Mirror) (es : List Event) : Mirror := es.foldl note M

theorem after_append (M : Mirror) (es es' : List Event) :
    M.after (es ++ es') = (M.after es).after es' := List.foldl_append

/-- The last of the entries that were put under a key is kept, and it is the last that is written
there. -/
theorem after_puts (M : Mirror) (key : String) (ttl : Option Int) (policy : Policy) [Instant τ]
    (now : τ) (entries : List Arguments.Entry) :
    (∃ e ∈ entries, M.after (entries.map fun e => .put e.key e.value) key = some e.value ∧
      Transaction.lastRow key ((⟨entries, ttl, policy⟩ : WrittenMany).rows now) =
        some (Operation.rowOf e.payload ttl policy now)) ∨
    (M.after (entries.map fun e => .put e.key e.value) key = M key ∧
      Transaction.lastRow key ((⟨entries, ttl, policy⟩ : WrittenMany).rows now) = none) := by
  induction entries generalizing M with
  | nil => exact .inr ⟨rfl, rfl⟩
  | cons e rest ih =>
    have hlast : Transaction.lastRow key ((⟨e :: rest, ttl, policy⟩ : WrittenMany).rows now) =
        (Transaction.lastRow key ((⟨rest, ttl, policy⟩ : WrittenMany).rows now)).or
          (if e.key.text = key then some (Operation.rowOf e.payload ttl policy now)
            else none) := rfl
    rw [hlast]
    rcases ih (M.note (.put e.key e.value)) with ⟨e', mem, hkeeps, hrow⟩ | ⟨hkeeps, hrow⟩
    · exact .inl ⟨e', List.mem_cons_of_mem _ mem, hkeeps, by rw [hrow]; rfl⟩
    · rw [hrow, Option.none_or]
      by_cases hk : e.key.text = key
      · refine .inl ⟨e, List.mem_cons_self, hkeeps.trans ?_, if_pos hk⟩
        exact if_pos hk.symm
      · refine .inr ⟨hkeeps.trans ?_, if_neg hk⟩
        exact if_neg (Ne.symm hk)

/-- Keys that were evicted are forgotten, and no others. -/
theorem after_evicts (M : Mirror) (key : String) (keys : List Key) :
    M.after (keys.map .evict) key = if key ∈ keys.map (·.text) then none else M key := by
  induction keys generalizing M with
  | nil => rfl
  | cons k rest ih =>
    have hfirst : M.after ((k :: rest).map .evict) key =
        (M.note (.evict k)).after (rest.map .evict) key := rfl
    rw [hfirst, ih]
    by_cases hk : key = k.text <;> simp [note, hk]

end Mirror

/-- What a listener was told, in order. -/
def heardBy (l : ListenerId) (heard : List (ListenerId × Event)) : List Event :=
  heard.filterMap fun h => if h.1 = l then some h.2 else none

/-- The map that a listener keeps. -/
def mirror (l : ListenerId) (heard : List (ListenerId × Event)) : Mirror :=
  Mirror.after (fun _ => none) (heardBy l heard)

theorem heardBy_append (l : ListenerId) (heard heard' : List (ListenerId × Event)) :
    heardBy l (heard ++ heard') = heardBy l heard ++ heardBy l heard' := List.filterMap_append

theorem mirror_append (l : ListenerId) (heard heard' : List (ListenerId × Event)) :
    mirror l (heard ++ heard') = (mirror l heard).after (heardBy l heard') := by
  unfold mirror
  rw [heardBy_append, Mirror.after_append]

/-- A listener that was listed so often is told of an event as often. -/
theorem heardBy_told (l : ListenerId) (ls : List ListenerId) (e : Event) :
    heardBy l (ls.map (·, e)) = List.replicate (ls.count l) e := by
  induction ls with
  | nil => rfl
  | cons l' rest ih =>
    have hsplit : heardBy l ((l' :: rest).map (·, e)) =
        heardBy l [(l', e)] ++ heardBy l (rest.map (·, e)) := heardBy_append l [(l', e)] _
    rw [hsplit, ih]
    by_cases hl : l' = l
    · simp [heardBy, hl, List.replicate_succ]
    · simp [heardBy, hl]

/-- A listener that is listed once each time is told of each event once. -/
theorem heardBy_announced {es : List Event} {ms : List (Mark τ)} (announced : Announced es ms)
    {l : ListenerId} (registered : ∀ ls, .listed ls ∈ ms → ls.count l = 1) :
    heardBy l (hearings ms) = es := by
  induction announced with
  | nil => rfl
  | @cons e ls es ms _ ih =>
    have hcount : ls.count l = 1 := registered ls (List.mem_append_left _ List.mem_cons_self)
    rw [hearings_cons, heardBy_append, heardBy_told, hcount,
      ih fun ls hls => registered ls (List.mem_append_right _ hls)]
    rfl

/-! ## What marks do -/

section
variable [Instant τ] {listens : Desk τ → Desk τ → Prop} {d d' : Desk τ}

theorem Does.mute {looksUp : Bool} {ms : List (Mark τ)} (h : Does listens ms d d')
    (mute : ms.all (Mark.isMute looksUp) = true) :
    (∀ key, d'.table.payload? key = d.table.payload? key) ∧ d'.heard = d.heard := by
  induction ms generalizing d with
  | nil =>
    obtain rfl : d' = d := h
    exact ⟨fun _ => rfl, rfl⟩
  | cons m rest ih =>
    obtain ⟨hm, hrest⟩ := Bool.and_eq_true_iff.1 (List.all_cons ▸ mute)
    obtain ⟨d₁, hdoes, hmore⟩ := h
    obtain ⟨hpayload, hheard⟩ := ih hmore hrest
    cases m with
    | read now =>
      obtain rfl : d₁ = d := hdoes
      exact ⟨hpayload, hheard⟩
    | recalled memo =>
      obtain rfl : d₁ = d := hdoes.2
      exact ⟨hpayload, hheard⟩
    | noted b =>
      obtain rfl : d₁ = d.note b := hdoes
      exact ⟨hpayload, hheard⟩
    | committed a r =>
      obtain ⟨t, hcommit, rfl⟩ := hdoes
      refine ⟨fun key => (hpayload key).trans ?_, hheard⟩
      exact Transaction.payload?_of_isStill hm hcommit key
    | listed | told => cases hm

theorem Does.reported (silent : ∀ d d', listens d d' → d' = d) {l : ListenerId} {es : List Event}
    {told : List (Mark τ)} (notes : List (Mark τ)) (h : Does listens (notes ++ told) d d')
    (clerical : notes.all Mark.isClerical = true) (announced : Announced es told)
    (registered : ∀ ls, .listed ls ∈ told → ls.count l = 1) :
    d'.table = d.table ∧ mirror l d'.heard = (mirror l d.heard).after es := by
  obtain ⟨d₁, hnotes, htold⟩ := does_append.1 h
  obtain ⟨htable, hheard⟩ := hnotes.clerical clerical
  obtain rfl := htold.announced silent announced
  refine ⟨htable, ?_⟩
  show mirror l (d₁.heard ++ hearings told) = _
  rw [mirror_append, heardBy_announced announced registered, hheard]

end

/-! ## Operations one after the other -/

/-- An operation that was carried out. -/
structure Episode (τ : Type) where
  call : Call
  before : Table τ
  after : Table τ
  marks : List (Mark τ)

namespace Episode

variable [Instant τ]

/-- The operation has removed the row of a key because it had expired. -/
def Expires (e : Episode τ) (key : String) : Prop :=
  e.call.sweeps = true ∧ ∃ a r now row, .committed a r ∈ e.marks ∧
    (a = .removeExpiredKey key now ∨ a = .removeExpired now) ∧
    e.before.find? key = some row ∧ (Condition.expired row now).holds = true ∧
    e.after.find? key = none

/-- What an operation does to the value that a mirror holds of a key, and to the row. -/
inductive Turn (e : Episode τ) (key : String) (M M' : Mirror) : Prop
  | kept (held : M' key = M key) (stays : e.after.payload? key = e.before.payload? key)
  | put {v : Value} {j : Json} (held : M' key = some v)
      (there : e.after.payload? key = some (.document j)) (encoded : Payload.encode v = .ok j)
  | gone (held : M' key = none) (absent : e.after.payload? key = none)
  | lapsed (held : M' key = M key) (expires : e.Expires key)

end Episode

/-- The last row of a key has been removed as expired in one of the operations, and there has not
been one since. -/
def Lapsed [Instant τ] (key : String) (es : List (Episode τ)) : Prop :=
  ∃ earlier e later, es = earlier ++ e :: later ∧ e.Expires key ∧
    ∀ e' ∈ later, e'.after.find? key = none

section
variable [Instant τ] {listens : Desk τ → Desk τ → Prop} {d d' : Desk τ}

/-- A transaction that removes only what has expired removes the row of a key. -/
theorem Transaction.takes_of_isSweep {a : Transaction τ} {key : String} {row : Row τ}
    (sweep : a.isSweep = true) (takes : a.takes key row = true) :
    ∃ now, (a = .removeExpiredKey key now ∨ a = .removeExpired now) ∧
      (Condition.expired row now).holds = true := by
  cases a with
  | removeExpiredKey k now =>
    obtain ⟨hk, expired⟩ := Bool.and_eq_true_iff.1 takes
    obtain rfl := beq_iff_eq.1 hk
    exact ⟨now, .inl rfl, expired⟩
  | removeExpired now => exact ⟨now, .inr rfl, takes⟩
  | _ => cases sweep

omit [Instant τ] in
theorem Transaction.isRemoval_of_isSweep {a : Transaction τ} (sweep : a.isSweep = true) :
    a.isRemoval = true := by
  cases a with
  | removeExpiredKey | removeExpired => rfl
  | _ => cases sweep

omit [Instant τ] in
theorem Transaction.puts_of_isRemoval {a : Transaction τ} (r : a.Reply)
    (removal : a.isRemoval = true) (key : String) : a.puts key r = none := by
  cases a with
  | write | writeIfAbsent => cases removal
  | _ => rfl

omit [Instant τ] in
theorem Transaction.isRemoval_of_evicts {a : Transaction τ} (evicting : a.evicts = true) :
    a.isRemoval = true := by
  cases a with
  | remove | removeMany | removeMatching => rfl
  | _ => cases evicting

/-- What a call does to the mirror of a listener and to the row of a key, whatever course it
takes. -/
theorem Call.Course.turn {call : Call} {ms : List (Mark τ)} (course : call.Course ms)
    (silent : ∀ d d', listens d d' → d' = d) {l : ListenerId}
    (registered : ∀ ls, .listed ls ∈ ms → ls.count l = 1) (h : Does listens ms d d')
    (key : String) : Episode.Turn ⟨call, d.table, d'.table, ms⟩ key (mirror l d.heard)
      (mirror l d'.heard) := by
  cases course with
  | mute mute =>
    obtain ⟨hpayload, hheard⟩ := h.mute mute
    exact .kept (by rw [hheard]) (hpayload key)
  | @wrote w now told writes encoded announced =>
    obtain ⟨d₀, hread, d₁, ⟨t, hcommit, rfl⟩, hrest⟩ := h
    obtain rfl : d₀ = d := hread
    obtain ⟨htable, hmirror⟩ := hrest.reported silent [_, _] rfl announced fun ls hls =>
      registered ls (List.mem_append_right _ hls)
    rw [htable, hmirror]
    rcases Mirror.after_puts (mirror l d₀.heard) key w.ttl w.policy now w.entries with
      ⟨e, mem, hheld, hrow⟩ | ⟨hheld, hrow⟩
    · refine .put hheld (Transaction.payload?_of_puts hcommit ?_)
        (Payload.encode_key (encoded e mem) none)
      exact congrArg (Option.map Row.payload) hrow
    · refine .kept hheld (Transaction.payload?_of_spared hcommit ?_ fun _ _ => rfl)
      exact congrArg (Option.map Row.payload) hrow
  | @inserted before w value now told writes idle encoded announced =>
    rw [List.append_assoc] at h
    obtain ⟨d₀, hbefore, d₁, ⟨t, hcommit, rfl⟩, hrest⟩ := does_append.1 h
    obtain rfl := hbefore.idle idle
    obtain ⟨htable, hmirror⟩ := hrest.reported silent [_, _] rfl announced fun ls hls =>
      registered ls (List.mem_append_right _ hls)
    rw [htable, hmirror]
    by_cases hk : key = w.key.text
    · exact .put (if_pos hk) (Transaction.payload?_of_puts hcommit (if_pos hk))
        (Payload.encode_key encoded none)
    · exact .kept (if_neg hk) (Transaction.payload?_of_spared hcommit (if_neg hk) fun _ _ => rfl)
  | @removed a r keys told evicts spares evicting named announced =>
    obtain ⟨d₁, ⟨t, hcommit, rfl⟩, hrest⟩ := h
    obtain ⟨htable, hmirror⟩ := hrest.reported silent _ (by split <;> rfl) announced fun ls hls =>
      registered ls (List.mem_append_right _ hls)
    rw [htable, hmirror]
    have hheld := Mirror.after_evicts (mirror l d.heard) key keys
    rw [named, Transaction.evicted_commit evicting hcommit] at hheld
    by_cases hk : key ∈ d.table.lost t
    · rw [if_pos hk] at hheld
      exact .gone hheld (Table.payload?_eq_none.2 (Table.mem_lost.1 hk).2)
    · rw [if_neg hk] at hheld
      have hputs := Transaction.puts_of_isRemoval r (Transaction.isRemoval_of_evicts evicting) key
      exact .kept hheld (Transaction.payload?_of_not_lost hcommit hputs hk)
  | @cleared n told clears announced =>
    obtain ⟨d₁, ⟨t, hcommit, rfl⟩, hrest⟩ := h
    obtain ⟨htable, hmirror⟩ := hrest.reported silent _ (by split <;> rfl) announced fun ls hls =>
      registered ls (List.mem_append_right _ hls)
    rw [htable, hmirror, (Transaction.removeEvery_commit hcommit).2]
    exact .gone rfl rfl
  | @swept before after a r sweeps idle sweep mute =>
    obtain ⟨d₀, hbefore, d₁, ⟨t, hcommit, rfl⟩, hrest⟩ := does_append.1 h
    obtain rfl := hbefore.idle idle
    obtain ⟨hpayload, hheard⟩ := hrest.mute mute
    have hputs := Transaction.puts_of_isRemoval r (Transaction.isRemoval_of_isSweep sweep) key
    by_cases hk : key ∈ d₀.table.lost t
    · obtain ⟨row, hfound, htakes⟩ := (Transaction.mem_lost_commit hcommit).1 hk
      obtain ⟨now, ha, expired⟩ := Transaction.takes_of_isSweep sweep htakes
      have hgone : d'.table.find? key = none := by
        rw [← Table.payload?_eq_none, hpayload, Table.payload?_eq_none]
        exact (Table.mem_lost.1 hk).2
      exact .lapsed (by rw [hheard])
        ⟨sweeps, a, r, now, row, by simp, ha, hfound, expired, hgone⟩
    · have hstays := Transaction.payload?_of_not_lost hcommit hputs hk
      exact .kept (by rw [hheard]) ((hpayload key).trans hstays)

end

/-! ## Runs -/

namespace Host

variable [Instant τ] [Delay τ] (h : Host τ σ)

/-- An operation that a host carries out. -/
def episode (c : Config τ) (call : Call) (s : σ) : Episode τ :=
  ⟨call, (h.desk s).table, (h.desk (h.answer c call s).2).table, (h.trail c call s).marks⟩

/-- Operations are carried out one after the other.  In between there may happen whatever leaves the
desk as it is: the clock may be set to any time. -/
inductive Runs (c : Config τ) (s₀ : σ) : List (Episode τ) → σ → Prop
  | start : Runs c s₀ [] s₀
  | pause {es : List (Episode τ)} {s s' : σ} (run : Runs c s₀ es s) (same : h.desk s' = h.desk s) :
      Runs c s₀ es s'
  | call {es : List (Episode τ)} {s : σ} (run : Runs c s₀ es s) (call : Call) :
      Runs c s₀ (es ++ [h.episode c call s]) (h.answer c call s).2

/-- What is true of the mirror of a listener after any number of operations. -/
structure Mirrors (l : ListenerId) (es : List (Episode τ)) (d : Desk τ) : Prop where
  rows (key : String) (p : Cell) (there : d.table.payload? key = some p) :
    ∃ v j, mirror l d.heard key = some v ∧ Payload.encode v = .ok j ∧ p = .document j
  beyond (key : String) (v : Value) (held : mirror l d.heard key = some v)
    (absent : d.table.find? key = none) : Lapsed key es

variable {h}

omit [Delay τ] in
/-- A listener that is registered once is listed once, whenever listeners are listed. -/
theorem listed_of_trailAfter {α : Type} {l : ListenerId}
    (registered : ∀ s, (h.handle .listeners s).1.count l = 1) (x : Program τ α) (s : σ) :
    ∀ ls, .listed ls ∈ (x.trailAfter h.handle s {}).marks → ls.count l = 1 := by
  have hleaves (e : Effect τ) (s : σ) (m : Mark τ) (hm : e.mark? (h.handle e s).1 = some m) :
      ∀ ls, m = .listed ls → ls.count l = 1 := by
    rintro ls rfl
    cases e with
    | listeners =>
      obtain rfl := Mark.listed.inj (Option.some.inj hm)
      exact registered s
    | readClock => cases hr : (h.handle .readClock s).1 <;> rw [hr] at hm <;> cases hm
    | attempt a => cases hr : (h.handle (.attempt a) s).1 <;> rw [hr] at hm <;> cases hm
    | _ => cases hm
  intro ls mem
  refine Program.forall_mark_trailAfter (fun _ => True) (fun _ _ _ => trivial)
    (fun e s _ => hleaves e s) x trivial ?_ (.listed ls) mem ls rfl
  intro m mem
  cases mem

omit [Delay τ] in
theorem lapsed_append {key : String} {es : List (Episode τ)} (lapsed : Lapsed key es)
    {e : Episode τ} (absent : e.after.find? key = none) : Lapsed key (es ++ [e]) := by
  obtain ⟨earlier, e₀, later, rfl, expires, hlater⟩ := lapsed
  refine ⟨earlier, e₀, later ++ [e], by simp, expires, fun e' mem => ?_⟩
  rcases List.mem_append.1 mem with mem | mem
  · exact hlater e' mem
  · rw [List.mem_singleton.1 mem]
    exact absent

omit [Delay τ] in
theorem lapsed_of_expires {key : String} (es : List (Episode τ)) {e : Episode τ}
    (expires : e.Expires key) : Lapsed key (es ++ [e]) :=
  ⟨es, e, [], rfl, expires, fun _ mem => nomatch mem⟩

omit [Delay τ] in
/-- One more operation, as each key sees it. -/
theorem Mirrors.turn {l : ListenerId} {es : List (Episode τ)} {d d' : Desk τ}
    (mirrors : Mirrors l es d) {e : Episode τ} (before : e.before = d.table)
    (after : e.after = d'.table)
    (turn : ∀ key, e.Turn key (mirror l d.heard) (mirror l d'.heard)) :
    Mirrors l (es ++ [e]) d' where
  rows key p there := by
    cases turn key with
    | kept held stays =>
      rw [after, before] at stays
      rw [held]
      exact mirrors.rows key p (stays ▸ there)
    | @put v j held there' encoded =>
      rw [after, there] at there'
      exact ⟨v, j, held, encoded, Option.some.inj there'⟩
    | gone _ absent => cases there.symm.trans (after ▸ absent)
    | lapsed _ expires =>
      obtain ⟨-, _, _, _, _, -, -, -, -, hgone⟩ := expires
      cases there.symm.trans (Table.payload?_eq_none.2 (after ▸ hgone))
  beyond key v held absent := by
    have hgone : e.after.find? key = none := after ▸ absent
    cases turn key with
    | kept held' stays =>
      rw [Table.payload?_eq_none.2 hgone, before] at stays
      refine lapsed_append (mirrors.beyond key v (held' ▸ held) ?_) hgone
      exact Table.payload?_eq_none.1 stays.symm
    | put _ there _ => cases there.symm.trans (Table.payload?_eq_none.2 hgone)
    | gone held' _ => cases held.symm.trans held'
    | lapsed _ expires => exact lapsed_of_expires es expires

theorem mirrors_of_run {c : Config τ} {l : ListenerId}
    (silent : ∀ d d', h.listens d d' → d' = d)
    (registered : ∀ s, (h.handle .listeners s).1.count l = 1) {s₀ s : σ} {es : List (Episode τ)}
    (empty : (h.desk s₀).table = .empty) (fresh : (h.desk s₀).heard = [])
    (run : h.Runs c s₀ es s) : Mirrors l es (h.desk s) := by
  induction run with
  | start =>
    constructor
    · intro key p there
      rw [empty] at there
      cases there
    · intro key v held
      rw [fresh] at held
      cases held
  | pause run same ih => exact same ▸ ih
  | @call es s run call ih =>
    obtain ⟨hconcludes, hdoes⟩ := h.answer_concludes c call s
    have hlisted := listed_of_trailAfter registered (ExceptT.run (call.program c)) s
    exact ih.turn rfl rfl (hconcludes.course.turn silent hlisted hdoes)

/-- A listener can mirror the store.  It is registered once all the time and leaves the store alone,
and the store alone works on a table that was empty when it began.  Then whatever operations are
carried out, with whatever readings of the clock, and whether they fail or not: each row holds the
payload of the value that the mirror holds of its key, and what the mirror holds beyond that are
keys whose last row was removed because it had expired. -/
theorem mirrored {c : Config τ} {l : ListenerId} (silent : ∀ d d', h.listens d d' → d' = d)
    (registered : ∀ s, (h.handle .listeners s).1.count l = 1) {s₀ s : σ} {es : List (Episode τ)}
    (empty : (h.desk s₀).table = .empty) (fresh : (h.desk s₀).heard = [])
    (run : h.Runs c s₀ es s) :
    (∀ key row, (h.desk s).table.find? key = some row →
      ∃ v j, mirror l (h.desk s).heard key = some v ∧ Payload.encode v = .ok j ∧
        row.payload = .document j) ∧
    (∀ key v, mirror l (h.desk s).heard key = some v → (h.desk s).table.find? key = none →
      Lapsed key es) := by
  have mirrors := mirrors_of_run silent registered empty fresh run
  refine ⟨fun key row hfound => ?_, mirrors.beyond⟩
  exact mirrors.rows key row.payload (by rw [Table.payload?, hfound]; rfl)

/-- A store with one listener, which looks on. -/
def overlooked : Host Int (Int × Desk Int) := watched [⟨"onlooker", "Onlooker"⟩]

/-- A text that is put to live for 10. -/
def shortLived : Call := .put (.str "k") (.str "x") (.int 10) Policy.absolute.toValue

/-- It was put at 0, and now it is 20. -/
def outlived : Int × Desk Int :=
  (20, (overlooked.answer .plain shortLived (0, ⟨.empty, {}, {}, []⟩)).2.2)

/-- A lookup at 20 removes the row, and the onlooker still holds the text. -/
theorem mirrored_outlived :
    mirror ⟨"onlooker", "Onlooker"⟩ (overlooked.answer .plain (.get (.str "k")) outlived).2.2.heard
        "k" = some (.str "x") ∧
      (overlooked.answer .plain (.get (.str "k")) outlived).2.2.table.find? "k" = none ∧
      Lapsed "k" [overlooked.episode .plain shortLived (0, ⟨.empty, {}, {}, []⟩),
        overlooked.episode .plain (.get (.str "k")) outlived] := by
  have held : mirror ⟨"onlooker", "Onlooker"⟩
      (overlooked.answer .plain (.get (.str "k")) outlived).2.2.heard "k" = some (.str "x") := by
    rfl
  have absent :
      (overlooked.answer .plain (.get (.str "k")) outlived).2.2.table.find? "k" = none := by
    rfl
  have hput : overlooked.Runs .plain (0, ⟨.empty, {}, {}, []⟩) _ outlived :=
    .pause (.call .start shortLived) rfl
  have hrun := hput.call (.get (.str "k"))
  exact ⟨held, absent, (mirrored (fun _ _ h => h) (fun _ => rfl) rfl rfl hrun).2 "k" _ held absent⟩

end Host

end ExpiringStore
