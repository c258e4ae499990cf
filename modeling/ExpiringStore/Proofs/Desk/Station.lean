import ExpiringStore.Proofs.Call.Storable
import ExpiringStore.Proofs.Desk.Basic

/-!
# Stations

A station is a host with a clock that stands still while a call is carried out, and a storage that
works: a transaction fails only if it cannot be committed.  Only the removal of an expired entry in
passing may fail for other reasons, as long as it fails with a complaint.

    obliging station, readable table   →   a call has its account, or asks for what the storage
                                           cannot do                             (answer_cases)
-/

namespace ExpiringStore

variable {τ σ α : Type}

namespace Desk

variable [OrderedInstant τ]

/-- A desk where all payloads can be read, and no size was counted later than now. -/
structure Tidy (d : Desk τ) (now : τ) : Prop where
  readable : d.table.IsReadable
  past (n : Nat) (at' : τ) (counted : d.memo.counted = some (n, at')) : at' ≤ now

theorem Tidy.mono {d : Desk τ} {now later : τ} (h : d.Tidy now) (hle : now ≤ later) :
    d.Tidy later :=
  ⟨h.readable, fun n at' counted => le_trans (h.past n at' counted) hle⟩

omit [OrderedInstant τ] in
theorem counted_note [Instant τ] {d : Desk τ} {now : τ} {b : Bookkeeping τ} {ms : List (Mark τ)}
    (order : Call.Books ms b) (readings : ∀ n, .read n ∈ ms → n = now) {n : Nat} {at' : τ}
    (counted : (d.note b).memo.counted = some (n, at')) :
    at' = now ∨ d.memo.counted = some (n, at') := by
  cases b with
  | record counter k => exact .inr counted
  | forgetSize => cases counted
  | keepSize g count n' =>
    simp only [note_memo, SizeMemo.after] at counted
    split at counted
    · obtain ⟨m₀, m, -, hms⟩ := order
      obtain ⟨-, rfl⟩ := Prod.mk.inj (Option.some.inj counted)
      exact .inl (readings n' (by rw [hms]; exact List.mem_cons_self))
    · exact .inr counted

end Desk

/-- A host with a clock and with a storage that works. -/
structure Station (τ σ : Type) [Instant τ] extends Host τ σ where
  clock : σ → τ
  /-- Sets the clock. -/
  advance : τ → σ → σ
  desk_advance (now : τ) (s : σ) : desk (advance now s) = desk s
  clock_advance (now : τ) (s : σ) : clock (advance now s) = now
  /-- While a program is carried out, the clock stands still. -/
  clock_handle (e : Effect τ) (s : σ) : clock (handle e s).2 = clock s
  reads (s : σ) : (handle .readClock s).1 = .ok (clock s)
  succeeds (step : EngineStep) (s : σ) : step.succeeded (handle (.engine step) s).1 = true
  /-- Listeners leave the desk alone. -/
  silent (d d' : Desk τ) (h : listens d d') : d' = d

section
variable [Instant τ] [Delay τ]

/-- The removal of an expired entry fails with a complaint, whatever is reported of it. -/
def Config.Excuses (c : Config τ) (a : Transaction τ) (f : Failure) : Prop :=
  (∃ key now, a = .removeExpiredKey key now) ∧ ∀ g, c.Reports f g → g.complaint?.isSome = true

/-- A station where only that fails which has to, and now and then the removal of an expired
entry.  What has to fail is what the table refuses.  The limits of an engine are no matter of the
table: the variables that it binds in one statement, of which writing, fetching and removing many
entries need some for each of them, and the digits of a whole number that it writes into a payload
(`Transaction.isWritable`).  An obliging station is one where calls keep within them. -/
def Station.Obliging (h : Station τ σ) (c : Config τ) : Prop :=
  ∀ (a : Transaction τ) (s : σ) (f : Failure), (h.handle (.attempt a) s).1 = .error f →
    a.commit (h.desk s).table = .error f ∨ c.Excuses a f

def Trouble.IsPossible (c : Config τ) : Trouble τ → Prop
  | .attempt a f => (∃ t : Table τ, t.IsReadable ∧ a.commit t = .error f) ∨ c.Excuses a f
  | _ => False

end

namespace Station

variable [OrderedInstant τ] [Delay τ] (h : Station τ σ) {c : Config τ} {s : σ}

/-- What is so while a call is carried out at an instant, begun with a desk. -/
structure Orderly (c : Config τ) (now : τ) (d : Desk τ) (s : σ) (t : Trail τ) : Prop where
  clock : h.clock s = now
  readable : (h.desk s).table.IsReadable
  kept (n : Nat) (at' : τ) (counted : (h.desk s).memo.counted = some (n, at')) :
    at' = now ∨ d.memo.counted = some (n, at')
  readings (n : τ) (mem : .read n ∈ t.marks) : n = now
  troubles (x : Trouble τ) (mem : x ∈ t.troubles) : x.IsPossible c

variable {h} {now : τ} {d : Desk τ} {t : Trail τ}

/-- An effect that leaves the table and the counted size as they are, and that reads no clock. -/
theorem Orderly.aside (orderly : h.Orderly c now d s t) {e : Effect τ}
    (htable : (h.desk (h.handle e s).2).table = (h.desk s).table)
    (hmemo : (h.desk (h.handle e s).2).memo = (h.desk s).memo)
    {t' : Trail τ} (hmarks : ∀ n, .read n ∈ t'.marks → .read n ∈ t.marks)
    (htroubles : t'.troubles = t.troubles) : h.Orderly c now d (h.handle e s).2 t' where
  clock := (h.clock_handle e s).trans orderly.clock
  readable := htable ▸ orderly.readable
  kept n at' counted := orderly.kept n at' (hmemo ▸ counted)
  readings n mem := orderly.readings n (hmarks n mem)
  troubles x mem := orderly.troubles x (htroubles ▸ mem)

omit [OrderedInstant τ] [Delay τ] in
theorem read_of_mark (m : Mark τ) (hm : ∀ n, m ≠ .read n) (n : τ)
    (mem : .read n ∈ (t.mark m).marks) : .read n ∈ t.marks := by
  rcases List.mem_append.1 mem with mem | mem
  · exact mem
  · exact absurd (List.mem_singleton.1 mem).symm (hm n)

theorem Orderly.after (orderly : h.Orderly c now d s t) (obliging : h.Obliging c) {e : Effect τ}
    (order : e.InOrder Call.Books t.marks)
    (permitted : ∀ a, e = .attempt a → a.isLegible = true) :
    h.Orderly c now d (h.handle e s).2 (t.after e (h.handle e s).1) := by
  have hlawful := h.lawful e s
  cases e with
  | readClock =>
    have hdesk : h.desk (h.handle .readClock s).2 = h.desk s := by
      rw [h.reads s] at hlawful
      exact hlawful
    have haside : h.Orderly c now d (h.handle .readClock s).2 t :=
      orderly.aside (congrArg Desk.table hdesk) (congrArg Desk.memo hdesk) (fun n mem => mem) rfl
    rw [h.reads s]
    refine ⟨haside.clock, haside.readable, haside.kept, fun n mem => ?_, haside.troubles⟩
    rcases List.mem_append.1 mem with mem | mem
    · exact orderly.readings n mem
    · obtain rfl := Mark.read.inj (List.mem_singleton.1 mem)
      exact orderly.clock
  | attempt a =>
    have hclock := (h.clock_handle (.attempt a) s).trans orderly.clock
    cases hr : (h.handle (.attempt a) s).1 with
    | ok r =>
      rw [hr] at hlawful
      obtain ⟨t', hdone, hdesk⟩ := hlawful
      have hread := Transaction.isReadable_commit (permitted a rfl) orderly.readable hdone
      refine ⟨hclock, by rw [hdesk]; exact hread, ?_, fun n mem => ?_, orderly.troubles⟩
      · rw [hdesk]
        exact orderly.kept
      · exact orderly.readings n (read_of_mark (.committed a r) (fun _ => nofun) n mem)
    | error f =>
      rw [hr] at hlawful
      have hdesk : h.desk (h.handle (.attempt a) s).2 = h.desk s := hlawful
      have haside : h.Orderly c now d (h.handle (.attempt a) s).2 t :=
        orderly.aside (congrArg Desk.table hdesk) (congrArg Desk.memo hdesk) (fun n mem => mem) rfl
      refine ⟨hclock, haside.readable, haside.kept, orderly.readings, fun x mem => ?_⟩
      rcases List.mem_append.1 mem with mem | mem
      · exact orderly.troubles x mem
      · obtain rfl := List.mem_singleton.1 mem
        exact (obliging a s f hr).imp_left fun hfailed => ⟨_, orderly.readable, hfailed⟩
  | recallSize =>
    exact orderly.aside (congrArg Desk.table hlawful.2) (congrArg Desk.memo hlawful.2)
      (read_of_mark _ fun _ => nofun) rfl
  | bookkeep b =>
    have hdesk : h.desk (h.handle (.bookkeep b) s).2 = (h.desk s).note b := hlawful
    refine ⟨(h.clock_handle _ s).trans orderly.clock, ?_, fun n at' counted => ?_,
      fun n mem => orderly.readings n (read_of_mark (.noted b) (fun _ => nofun) n mem),
      orderly.troubles⟩
    · rw [hdesk]
      exact orderly.readable
    · rw [hdesk] at counted
      exact (Desk.counted_note order orderly.readings counted).elim .inl (orderly.kept n at')
  | listeners =>
    exact orderly.aside (congrArg Desk.table hlawful) (congrArg Desk.memo hlawful)
      (read_of_mark _ fun _ => nofun) rfl
  | notify l e =>
    have hdesk := h.silent _ _ hlawful
    exact orderly.aside (by rw [hdesk]) (by rw [hdesk]) (read_of_mark _ fun _ => nofun) rfl
  | engine step =>
    show h.Orderly c now d _ (if step.succeeded _ then t.aside else t.trouble _)
    rw [if_pos (h.succeeds step s)]
    exact orderly.aside (congrArg Desk.table hlawful) (congrArg Desk.memo hlawful)
      (fun n mem => mem) rfl
  | pause | log | gate | sweeper | noteRunning =>
    exact orderly.aside (congrArg Desk.table hlawful) (congrArg Desk.memo hlawful)
      (fun n mem => mem) rfl

/-- A program is carried out that writes only what can be read again, and that keeps its books by
the rule. -/
theorem Orderly.run (obliging : h.Obliging c) {permits : List (Deed τ) → Transaction τ → Prop}
    (hlegible : ∀ deeds a, permits deeds a → a.isLegible = true) {ends : Past τ → α → Prop}
    {ends' : Trail τ → α → Prop} {x : Program τ α} {p : Past τ} (hx : x.Follows permits ends p)
    (hbooks : x.Traces Call.Books ends' t) (orderly : h.Orderly c now d s t) :
    h.Orderly c now d (x.run h.handle s).2 (x.trailAfter h.handle s t) := by
  induction x generalizing p s t with
  | done a => exact orderly
  | ask e next ih =>
    refine ih _ (hx.2 _) (hbooks.2 _) (orderly.after obliging hbooks.1 fun a ha => ?_)
    subst ha
    exact hlegible _ a hx.1

variable (h) in
/-- A call ends with its account, or for a transaction that the storage cannot carry out. -/
theorem answer_cases (call : Call) (obliging : h.Obliging c)
    (readable : (h.desk s).table.IsReadable) :
    h.Orderly c (h.clock s) (h.desk s) (h.answer c call s).2 (h.trail c call s) ∧
    Does h.listens (h.trail c call s).marks (h.desk s) (h.desk (h.answer c call s).2) ∧
    (call.Accounts c (h.trail c call s) (h.answer c call s).1 ∨
      ∃ (f g : Failure) (deeds : List (Deed τ)) (a : Transaction τ) (t : Table τ),
        (h.answer c call s).1 = .error f ∧ h.desk (h.answer c call s).2 = h.desk s ∧
        call.Makes c deeds a ∧ t.IsReadable ∧ a.commit t = .error g ∧ c.Reports g f) := by
  have hstart : h.Orderly c (h.clock s) (h.desk s) s {} :=
    ⟨rfl, readable, fun n at' counted => .inr counted, fun n mem => (nomatch mem),
      fun x mem => (nomatch mem)⟩
  have horderly :=
    hstart.run obliging (fun deeds a ha => ha.isLegible) (Call.follows_program c call)
    (Call.concludes_program c call)
  obtain ⟨hends, hdoes⟩ := h.answer_concludes c call s
  refine ⟨horderly, hdoes, ?_⟩
  rcases hends with ⟨f, hf, idle, broken⟩ | haccounts
  · cases broken with
    | clock met => cases horderly.troubles _ met
    | engine met own => cases horderly.troubles _ met
    | @attempt a f g met made reported strict =>
      rcases horderly.troubles _ met with ⟨t, hread, hfailed⟩ | ⟨⟨key, now, rfl⟩, excused⟩
      · exact .inr ⟨f, g, _, a, t, hf, hdoes.idle idle, made, hread, hfailed, reported⟩
      · -- What may fail in passing ends no call.
        have hmild := strict rfl
        cases hmild ▸ excused f reported
  · exact .inl haccounts

end Station

/-! ## A plain station -/

/-- A station that is a clock and a desk and no more.  One that is remiss removes no expired row in
passing. -/
def Station.plain [Instant τ] (remiss : Bool) : Station τ (τ × Desk τ) where
  handle
    | .attempt (.removeExpiredKey key now), s =>
      if remiss then (.error (.complaint ⟨.notInitialized, some "get", some (.plain key)⟩), s)
      else Host.plain.handle (.attempt (.removeExpiredKey key now)) s
    | e, s => Host.plain.handle e s
  desk s := s.2
  listens d d' := d' = d
  lawful e s := by
    have hplain := Host.plain.lawful e s
    cases e with
    | attempt a =>
      cases a with
      | removeExpiredKey key now =>
        cases remiss with
        | true => rfl
        | false => exact hplain
      | _ => exact hplain
    | _ => exact hplain
  clock s := s.1
  advance now s := (now, s.2)
  desk_advance _ _ := rfl
  clock_advance _ _ := rfl
  clock_handle e s := by
    cases e with
    | attempt a =>
      cases a with
      | removeExpiredKey key now => cases remiss <;> rfl
      | _ => rfl
    | _ => rfl
  reads s := rfl
  succeeds step s := by cases step <;> rfl
  silent _ _ h := h

namespace Station

/-- What a plain host fails to do, the table has refused. -/
theorem commit_of_plain [Instant τ] {a : Transaction τ} {s : τ × Desk τ} {f : Failure}
    (h : (Host.plain.handle (.attempt a) s).1 = .error f) : a.commit s.2.table = .error f := by
  have hanswer : ((Effect.attempt a).answer s.1 s.2.table).1 = .error f := h
  cases hc : a.commit s.2.table with
  | ok p =>
    rw [Effect.answer_ok hc] at hanswer
    cases hanswer
  | error g =>
    rw [Effect.answer_error hc] at hanswer
    exact congrArg _ (Except.error.inj hanswer)

theorem obliging_plain [Instant τ] [Delay τ] (remiss : Bool) (c : Config τ) :
    (plain remiss).Obliging c := by
  intro a s f h
  cases a with
  | removeExpiredKey key now =>
    cases remiss with
    | true =>
      obtain rfl := Except.error.inj h
      refine .inr ⟨⟨key, now, rfl⟩, fun g reported => ?_⟩
      cases reported
      rfl
    | false => exact .inl (commit_of_plain h)
  | _ => exact .inl (commit_of_plain h)

/-- A row that was written at 0, with a lifetime if it has one. -/
def written (p : Cell) (ttl : Option Int) : Row Int := ⟨p, 0, ttl, Policy.absolute.word, none⟩

/-- A text that is no structured data, and that has expired at 10. -/
def garbled : Table Int :=
  Table.empty.insert "k" (written (.unreadable "\x7bbad" ⟨.propertyName, 1⟩) (some 10))

/-- A desk over a table at which nothing was done yet. -/
def opened (t : Table Int) : Desk Int := ⟨t, {}, {}, []⟩

end Station

end ExpiringStore
