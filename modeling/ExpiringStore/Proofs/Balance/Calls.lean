import ExpiringStore.Proofs.Balance.Basic
import ExpiringStore.Proofs.Call.Accepted
import ExpiringStore.Proofs.Call.Course
import ExpiringStore.Proofs.Call.LiveValues
import ExpiringStore.Proofs.Table.Reply

/-!
# What calls count

Whatever course a call takes, what it has noted is what it has done: as many entries put as rows
were written, as many evicted as rows are gone, and as many events told.  What it has noted as found
and missed is what it answers.

    Course call ms, Dealt ms ks   →   Square call ms ks                (Course.square)
    Accounts c call t r           →   the hits and misses of t are those of r
-/

namespace ExpiringStore

variable {τ : Type}

/-! ## What is done -/

def Deal.written (k : Deal τ) : Nat :=
  match k with
  | ⟨.write rows, _, _, _⟩ => rows.length
  | ⟨.writeIfAbsent _ _ _, .inserted, _, _⟩ => 1
  | _ => 0

/-- How many rows are gone after a deal. -/
def Deal.removed (k : Deal τ) : Nat := (k.found.lost k.left).length

/-- Is a mark of listeners being asked for, to tell them of an event? -/
def Mark.isListing : Mark τ → Bool
  | .listed _ => true
  | _ => false

/-- How many events are announced, whoever listens. -/
def announcements (ms : List (Mark τ)) : Nat := ms.countP Mark.isListing

def Event.isPut : Event → Bool
  | .put _ _ => true
  | _ => false

def Event.isEvict : Event → Bool
  | .evict _ => true
  | _ => false

namespace Call

def rowsWritten (call : Call) (ks : List (Deal τ)) : Nat :=
  if call.writes then (ks.map Deal.written).sum else 0

def rowsEvicted (call : Call) (ks : List (Deal τ)) : Nat :=
  if call.evicts then (ks.map Deal.removed).sum else 0

/-- How many of these are gone because the table was emptied. -/
def rowsCleared (call : Call) (ks : List (Deal τ)) : Nat :=
  if call.clears then (ks.map Deal.removed).sum else 0

/-- How many entries a call returns that it has found. -/
def found : Call → Except Failure Answer → Nat
  | .get _ _ _, .ok (.lookup x) => if x.isFound then 1 else 0
  | .getAll _ _, .ok (.found entries) => entries.length
  | _, _ => 0

/-- How many of the keys that a call was asked for it has returned nothing for. -/
def missed : Call → Except Failure Answer → Nat
  | .get _ _ _, .ok (.lookup x) => if x.isFound then 0 else 1
  | .getAll keys _, .ok (.found entries) =>
    match Arguments.keys keys "get_all" with
    | .ok ks => (ks.filter fun k => !(entries.map (·.1)).contains k).length
    | .error _ => 0
  | _, _ => 0

/-- What a call has noted and told is what it has done. -/
structure Square (call : Call) (ms : List (Mark τ)) (ks : List (Deal τ)) : Prop where
  puts : noted .puts ms = call.rowsWritten ks
  evictions : noted .evictions ms = call.rowsEvicted ks
  hits (other : call.looksUp = false) : noted .hits ms = 0
  misses (other : call.looksUp = false) : noted .misses ms = 0
  written (writes : call.writes = true) : announcements ms = call.rowsWritten ks
  evicted (evicts : call.evicts = true) (spares : call.clears = false) :
    announcements ms = call.rowsEvicted ks
  told (l : ListenerId) (once : ∀ ls, .listed ls ∈ ms → ls.count l = 1) :
    timesTold l Event.isPut ms = call.rowsWritten ks ∧
      timesTold l Event.isEvict ms + call.rowsCleared ks = call.rowsEvicted ks

end Call

/-! ## Marks -/

@[simp] theorem noted_nil (k : Statistics.Counter) : noted k ([] : List (Mark τ)) = 0 := rfl

@[simp] theorem noted_cons (k : Statistics.Counter) (m : Mark τ) (ms : List (Mark τ)) :
    noted k (m :: ms) = m.adds k + noted k ms := List.sum_cons

theorem announcements_append (ms ms' : List (Mark τ)) :
    announcements (ms ++ ms') = announcements ms + announcements ms' := List.countP_append

theorem timesTold_append (l : ListenerId) (kind : Event → Bool) (ms ms' : List (Mark τ)) :
    timesTold l kind (ms ++ ms') = timesTold l kind ms + timesTold l kind ms' :=
  List.countP_append

/-- Listeners that are told of something are neither counted nor listed, and nothing is dealt. -/
theorem noted_told (k : Statistics.Counter) (ls : List ListenerId) (e : Event) :
    noted k (ls.map (.told · e) : List (Mark τ)) = 0 := by
  induction ls with
  | nil => rfl
  | cons l rest ih => exact (noted_cons ..).trans ((zero_add _).trans ih)

theorem announcements_told (ls : List ListenerId) (e : Event) :
    announcements (ls.map (.told · e) : List (Mark τ)) = 0 := by
  refine List.countP_eq_zero.2 fun m mem => ?_
  obtain ⟨l, -, rfl⟩ := List.mem_map.1 mem
  exact Bool.false_ne_true

theorem timesTold_told (l : ListenerId) (kind : Event → Bool) (ls : List ListenerId) (e : Event) :
    timesTold l kind (ls.map (.told · e) : List (Mark τ)) = if kind e then ls.count l else 0 := by
  unfold timesTold List.count
  rw [List.countP_map]
  cases hkind : kind e with
  | true =>
    refine List.countP_congr fun l' _ => ?_
    simp [Mark.tells, hkind]
  | false =>
    refine List.countP_eq_zero.2 fun l' _ => ?_
    simp [Mark.tells, hkind]

theorem noted_announced {es : List Event} {ms : List (Mark τ)} (h : Announced es ms)
    (k : Statistics.Counter) : noted k ms = 0 := by
  induction h with
  | nil => rfl
  | @cons e ls es ms _ ih =>
    rw [noted_append, noted_cons, noted_told, ih]
    rfl

theorem announcements_announced {es : List Event} {ms : List (Mark τ)} (h : Announced es ms) :
    announcements ms = es.length := by
  induction h with
  | nil => rfl
  | @cons e ls es ms _ ih =>
    have hlisted : announcements (.listed ls :: ls.map (.told · e) : List (Mark τ)) =
        announcements (ls.map (.told · e) : List (Mark τ)) + 1 := List.countP_cons_of_pos rfl
    rw [announcements_append, hlisted, announcements_told, ih, List.length_cons]
    omega

/-- A listener that is listed once each time is told of each event once. -/
theorem timesTold_announced {es : List Event} {ms : List (Mark τ)} (h : Announced es ms)
    {l : ListenerId} (once : ∀ ls, .listed ls ∈ ms → ls.count l = 1) (kind : Event → Bool) :
    timesTold l kind ms = es.countP kind := by
  induction h with
  | nil => rfl
  | @cons e ls es ms _ ih =>
    have hlisted : timesTold l kind (.listed ls :: ls.map (.told · e) : List (Mark τ)) =
        timesTold l kind (ls.map (.told · e) : List (Mark τ)) :=
      List.countP_cons_of_neg Bool.false_ne_true
    have hcount : ls.count l = 1 := once ls (List.mem_append_left _ List.mem_cons_self)
    rw [timesTold_append, hlisted, timesTold_told, hcount,
      ih fun ls hls => once ls (List.mem_append_right _ hls), List.countP_cons]
    omega

theorem dealt_announced [Instant τ] {es : List Event} {ms : List (Mark τ)} (h : Announced es ms)
    {ks : List (Deal τ)} (dealt : Dealt ms ks) : ks = [] := by
  have htold (ls : List ListenerId) (e : Event) {ks : List (Deal τ)}
      (dealt : Dealt (ls.map (.told · e)) ks) : ks = [] := by
    induction ls with
    | nil => exact dealt
    | cons l rest ih => exact ih dealt
  induction h generalizing ks with
  | nil => exact dealt
  | @cons e ls es ms _ ih =>
    obtain ⟨first, second, rfl, hfirst, hsecond⟩ := dealt_append.1 dealt
    rw [htold ls e hfirst, ih hsecond]
    rfl

/-- After a commit, what is noted is what the notes say. -/
theorem noted_reported {a : Transaction τ} {r : a.Reply} {es : List Event}
    {notes told : List (Mark τ)} (announced : Announced es told) (k : Statistics.Counter) :
    noted k (.committed a r :: notes ++ told) = noted k notes := by
  rw [noted_append, noted_cons, noted_announced announced, add_zero]
  exact zero_add _

theorem countP_clerical {p : Mark τ → Bool} {a : Transaction τ} {r : a.Reply}
    {notes : List (Mark τ)} (clerical : ∀ m ∈ notes, ∃ b, m = .noted b)
    (committed : p (.committed a r) = false) (noted : ∀ b, p (.noted b) = false) :
    (.committed a r :: notes).countP p = 0 := by
  refine List.countP_eq_zero.2 fun m mem => ?_
  rcases List.mem_cons.1 mem with rfl | mem
  · exact ne_true_of_eq_false committed
  · obtain ⟨b, rfl⟩ := clerical m mem
    exact ne_true_of_eq_false (noted b)

/-- After a commit, what is announced are the events that follow the notes. -/
theorem announcements_reported {a : Transaction τ} {r : a.Reply} {es : List Event}
    {notes told : List (Mark τ)} (clerical : ∀ m ∈ notes, ∃ b, m = .noted b)
    (announced : Announced es told) :
    announcements (.committed a r :: notes ++ told) = es.length := by
  rw [announcements_append, announcements_announced announced]
  exact Nat.add_eq_right.2 (countP_clerical clerical rfl fun _ => rfl)

theorem timesTold_reported {a : Transaction τ} {r : a.Reply} {es : List Event}
    {notes told : List (Mark τ)} (clerical : ∀ m ∈ notes, ∃ b, m = .noted b)
    (announced : Announced es told) {l : ListenerId}
    (once : ∀ ls, .listed ls ∈ .committed a r :: notes ++ told → ls.count l = 1)
    (kind : Event → Bool) :
    timesTold l kind (.committed a r :: notes ++ told) = es.countP kind := by
  rw [timesTold_append, timesTold_announced announced fun ls hls =>
    once ls (List.mem_append_right _ hls)]
  exact Nat.add_eq_right.2 (countP_clerical clerical rfl fun _ => rfl)

theorem dealt_noted [Instant τ] {ms : List (Mark τ)} (clerical : ∀ m ∈ ms, ∃ b, m = .noted b)
    {ks : List (Deal τ)} (dealt : Dealt ms ks) : ks = [] := by
  induction ms with
  | nil => exact dealt
  | cons m rest ih =>
    obtain ⟨b, rfl⟩ := clerical m List.mem_cons_self
    exact ih (fun m mem => clerical m (List.mem_cons_of_mem _ mem)) dealt

namespace Call

variable {call : Call} {ms ms' : List (Mark τ)} {ks ks' : List (Deal τ)}

/-! ## Courses -/

/-- What a call adds up over what it has dealt, if it is of the right kind. -/
theorem sum_if_append (kind : Bool) (f : Deal τ → Nat) (ks ks' : List (Deal τ)) :
    (if kind then ((ks ++ ks').map f).sum else 0) =
      (if kind then (ks.map f).sum else 0) + if kind then (ks'.map f).sum else 0 := by
  split
  · rw [List.map_append, List.sum_append]
  · rfl

theorem rowsWritten_append (call : Call) (ks ks' : List (Deal τ)) :
    call.rowsWritten (ks ++ ks') = call.rowsWritten ks + call.rowsWritten ks' :=
  sum_if_append ..

theorem rowsEvicted_append (call : Call) (ks ks' : List (Deal τ)) :
    call.rowsEvicted (ks ++ ks') = call.rowsEvicted ks + call.rowsEvicted ks' :=
  sum_if_append ..

theorem rowsCleared_append (call : Call) (ks ks' : List (Deal τ)) :
    call.rowsCleared (ks ++ ks') = call.rowsCleared ks + call.rowsCleared ks' :=
  sum_if_append ..

theorem Square.append (first : Square call ms ks) (second : Square call ms' ks') :
    Square call (ms ++ ms') (ks ++ ks') where
  puts := by
    rw [noted_append, first.puts, second.puts, rowsWritten_append]
    rfl
  evictions := by
    rw [noted_append, first.evictions, second.evictions, rowsEvicted_append]
    rfl
  hits other := by rw [noted_append, first.hits other, second.hits other, add_zero]
  misses other := by rw [noted_append, first.misses other, second.misses other, add_zero]
  written writes := by
    rw [announcements_append, first.written writes, second.written writes, rowsWritten_append]
  evicted evicts spares := by
    rw [announcements_append, first.evicted evicts spares, second.evicted evicts spares,
      rowsEvicted_append]
  told l once := by
    obtain ⟨hputs, hevicts⟩ := first.told l fun ls hls => once ls (List.mem_append_left _ hls)
    obtain ⟨hputs', hevicts'⟩ := second.told l fun ls hls => once ls (List.mem_append_right _ hls)
    rw [timesTold_append, timesTold_append, rowsWritten_append, rowsEvicted_append,
      rowsCleared_append]
    omega

theorem Square.aside {m : Mark τ} (first : Square call [m] []) (rest : Square call ms ks) :
    Square call (m :: ms) ks := first.append rest

theorem Square.dealt {a : Transaction τ} {r : a.Reply} {k : Deal τ}
    (first : Square call [.committed a r] [k]) (rest : Square call ms ks) :
    Square call (.committed a r :: ms) (k :: ks) := first.append rest

/-- Where nothing is written, removed, noted or told, all is square. -/
theorem square_of_idle (puts : noted .puts ms = 0) (evictions : noted .evictions ms = 0)
    (hits : call.looksUp = false → noted .hits ms = 0)
    (misses : call.looksUp = false → noted .misses ms = 0) (silent : announcements ms = 0)
    (untold : ∀ l kind, timesTold l kind ms = 0) (written : call.rowsWritten ks = 0)
    (evicted : call.rowsEvicted ks = 0) (cleared : call.rowsCleared ks = 0) :
    Square call ms ks where
  puts := by rw [puts, written]; rfl
  evictions := by rw [evictions, evicted]; rfl
  hits := hits
  misses := misses
  written _ := by rw [silent, written]
  evicted _ _ := by rw [silent, evicted]
  told l _ := by
    rw [untold, untold, written, cleared, evicted]
    exact ⟨rfl, rfl⟩

theorem evicts_of_writes (writes : call.writes = true) :
    call.evicts = false ∧ call.clears = false := by
  cases call with
  | put | putIfAbsent | putAll => exact ⟨rfl, rfl⟩
  | _ => cases writes

theorem writes_of_evicts (evicts : call.evicts = true) : call.writes = false := by
  cases call with
  | evict | evictAll | evictByPattern | clear => rfl
  | _ => cases evicts

theorem evicts_of_clears (clears : call.clears = true) : call.evicts = true := by
  cases call with
  | clear => rfl
  | _ => cases clears

theorem idle_of_sweeps (sweeps : call.sweeps = true) :
    call.writes = false ∧ call.evicts = false ∧ call.clears = false := by
  cases call with
  | get | cleanupExpired => exact ⟨rfl, rfl, rfl⟩
  | _ => cases sweeps

section
variable [Instant τ]

omit [Instant τ] in
theorem written_of_isStill {k : Deal τ} (still : k.transaction.isStill k.reply = true) :
    k.written = 0 := by
  obtain ⟨a, r, found, left⟩ := k
  cases a with
  | write => cases still
  | writeIfAbsent =>
    cases r with
    | inserted => cases still
    | present | neither => rfl
  | _ => rfl

theorem removed_of_isStill {k : Deal τ} (still : k.transaction.isStill k.reply = true)
    (done : k.transaction.commit k.found = .ok (k.reply, k.left)) : k.removed = 0 := by
  refine List.length_eq_zero_iff.2 (List.eq_nil_iff_forall_not_mem.2 fun key mem => ?_)
  obtain ⟨row, -, htakes⟩ := (Transaction.mem_lost_commit done).1 mem
  cases htakes.symm.trans (Transaction.takes_of_isStill still key row)

/-- What changes no payload, and of which nobody is told, is counted by nobody but those who look
for entries. -/
theorem square_of_mute (mute : ms.all (Mark.isMute call.looksUp) = true) (dealt : Dealt ms ks) :
    Square call ms ks := by
  have hplain {m : Mark τ} (hadds : ∀ k, m.adds k = 0) (hlisting : m.isListing = false)
      (htells : ∀ l kind, m.tells l kind = false) : Square call [m] [] := by
    refine square_of_idle ?_ ?_ (fun _ => ?_) (fun _ => ?_) ?_ (fun l kind => ?_) ?_ ?_ ?_
    all_goals simp [hadds, announcements, timesTold, hlisting, htells, rowsWritten, rowsEvicted,
      rowsCleared]
  induction ms generalizing ks with
  | nil =>
    obtain rfl : ks = [] := dealt
    refine square_of_idle rfl rfl (fun _ => rfl) (fun _ => rfl) rfl (fun _ _ => rfl) ?_ ?_ ?_
    all_goals simp [rowsWritten, rowsEvicted, rowsCleared]
  | cons m rest ih =>
    obtain ⟨hm, hrest⟩ := Bool.and_eq_true_iff.1 (List.all_cons ▸ mute)
    cases m with
    | read | recalled =>
      exact .aside (hplain (fun _ => rfl) rfl fun _ _ => rfl) (ih hrest dealt)
    | committed a r =>
      obtain ⟨found, left, ks, done, rfl, dealt⟩ := dealt
      refine .dealt ?_ (ih hrest dealt)
      have hwritten := written_of_isStill (k := ⟨a, r, found, left⟩) hm
      have hremoved := removed_of_isStill (k := ⟨a, r, found, left⟩) hm done
      refine square_of_idle rfl rfl (fun _ => rfl) (fun _ => rfl) rfl (fun _ _ => rfl) ?_ ?_ ?_
      all_goals simp [rowsWritten, rowsEvicted, rowsCleared, hwritten, hremoved]
    | noted b =>
      refine .aside ?_ (ih hrest dealt)
      cases b with
      | record k n =>
        cases k with
        | hits | misses =>
          have hlooks : call.looksUp = true := hm
          refine square_of_idle rfl rfl ?_ ?_ rfl (fun _ _ => rfl) ?_ ?_ ?_
          all_goals simp [hlooks, rowsWritten, rowsEvicted, rowsCleared]
        | puts | evictions => cases hm
      | forgetSize | keepSize => exact hplain (fun _ => rfl) rfl fun _ _ => rfl
    | listed | told => cases hm

omit [Instant τ] in
/-- So many entries are noted as put as there are rows written and events announced. -/
theorem square_of_put (writes : call.writes = true) {k : Deal τ} {n : Nat} {es : List Event}
    {told : List (Mark τ)} (hwritten : k.written = n) (hlength : es.length = n)
    (hput : ∀ e ∈ es, e.isPut = true) (announced : Announced es told) :
    Square call ([.committed k.transaction k.reply, .noted (.record .puts n), .noted .forgetSize] ++
      told) [k] := by
  obtain ⟨hevicts, hclears⟩ := evicts_of_writes writes
  have hrows : call.rowsWritten [k] = n := by simp [rowsWritten, writes, hwritten]
  have hevicted : call.rowsEvicted [k] = 0 := by simp [rowsEvicted, hevicts]
  have hcleared : call.rowsCleared [k] = 0 := by simp [rowsCleared, hclears]
  have hclerical : ∀ m ∈ ([.noted (.record .puts n), .noted .forgetSize] : List (Mark τ)),
      ∃ b, m = .noted b := by simp
  have hnoted (c : Statistics.Counter) : noted c ([.noted (.record .puts n), .noted .forgetSize] :
      List (Mark τ)) = if c = .puts then (n : Int) else 0 := by
    cases c <;> simp [Mark.adds, Bookkeeping.adds]
  have hnone : es.countP Event.isEvict = 0 := List.countP_eq_zero.2 fun e mem => by
    have := hput e mem
    cases e <;> simp_all [Event.isPut, Event.isEvict]
  refine ⟨?_, ?_, fun _ => ?_, fun _ => ?_, fun _ => ?_, fun evicts => ?_, fun l once => ⟨?_, ?_⟩⟩
  · rw [noted_reported announced, hnoted, hrows]
    rfl
  · rw [noted_reported announced, hnoted, hevicted]
    rfl
  · rw [noted_reported announced, hnoted]
    rfl
  · rw [noted_reported announced, hnoted]
    rfl
  · rw [announcements_reported hclerical announced, hlength, hrows]
  · cases evicts.symm.trans hevicts
  · rw [timesTold_reported hclerical announced once, List.countP_eq_length.2 hput, hlength, hrows]
  · rw [timesTold_reported hclerical announced once, hnone, hcleared, hevicted]

omit [Instant τ] in
/-- So many entries are noted as evicted as there are rows gone, and so many events announced unless
the table was emptied. -/
theorem square_of_removal (evicts : call.evicts = true) {k : Deal τ} {es : List Event}
    {notes told : List (Mark τ)} (clerical : ∀ m ∈ notes, ∃ b, m = .noted b)
    (counted : ∀ c, noted c notes = if c = .evictions then (k.removed : Int) else 0)
    (announced : Announced es told) (hput : es.countP Event.isPut = 0)
    (hlength : call.clears = false → es.length = k.removed)
    (hevict : es.countP Event.isEvict + call.rowsCleared [k] = k.removed) :
    Square call (.committed k.transaction k.reply :: notes ++ told) [k] := by
  have hwrites := writes_of_evicts evicts
  have hwritten : call.rowsWritten [k] = 0 := by simp [rowsWritten, hwrites]
  have hevicted : call.rowsEvicted [k] = k.removed := by simp [rowsEvicted, evicts]
  refine ⟨?_, ?_, fun _ => ?_, fun _ => ?_, fun writes => ?_, fun _ spares => ?_,
    fun l once => ⟨?_, ?_⟩⟩
  · rw [noted_reported announced, counted, hwritten]
    rfl
  · rw [noted_reported announced, counted, hevicted]
    rfl
  · rw [noted_reported announced, counted]
    rfl
  · rw [noted_reported announced, counted]
    rfl
  · cases writes.symm.trans hwrites
  · rw [announcements_reported clerical announced, hevicted, hlength spares]
  · rw [timesTold_reported clerical announced once, hput, hwritten]
  · rw [timesTold_reported clerical announced once, hevicted, hevict]

/-- Whatever course a call takes, all is square. -/
theorem Course.square (course : call.Course ms) (dealt : Dealt ms ks) : Square call ms ks := by
  cases course with
  | mute mute => exact square_of_mute mute dealt
  | @wrote w now told writes encoded announced =>
    obtain ⟨found, left, rest, done, rfl, dealt⟩ := dealt
    obtain rfl := dealt_announced announced dealt
    refine .aside (square_of_mute rfl rfl)
      (square_of_put writes (k := ⟨.write (w.rows now), (), found, left⟩) ?_ ?_ ?_ announced)
    · exact List.length_map ..
    · exact List.length_map ..
    · intro e mem
      obtain ⟨entry, -, rfl⟩ := List.mem_map.1 mem
      rfl
  | @inserted before w value now told writes idle encoded announced =>
    rw [List.append_assoc] at dealt ⊢
    obtain ⟨first, second, rfl, hfirst, hsecond⟩ := dealt_append.1 dealt
    obtain ⟨found, left, rest, done, rfl, htold⟩ := hsecond
    obtain rfl := dealt_announced announced htold
    refine (square_of_mute (all_isMute_of_isIdle _ idle) hfirst).append (square_of_put writes
      (k := ⟨.writeIfAbsent w.key.text (w.row now) now, .inserted, found, left⟩) rfl rfl ?_
      announced)
    intro e mem
    obtain rfl := List.mem_singleton.1 mem
    rfl
  | @removed a r keys told evicts spares evicting named announced =>
    obtain ⟨found, left, rest, done, rfl, hrest⟩ := dealt
    obtain ⟨first, second, rfl, hnotes, htold⟩ := dealt_append.1 hrest
    obtain rfl := dealt_announced announced htold
    have hremoved : (⟨a, r, found, left⟩ : Deal τ).removed = keys.length := by
      show (found.lost left).length = _
      rw [← Transaction.evicted_commit evicting done, ← named, List.length_map]
    have hclerical : ∀ m ∈ (if keys.isEmpty then []
        else [.noted (.record .evictions keys.length), .noted .forgetSize] : List (Mark τ)),
        ∃ b, m = .noted b := by
      split <;> simp
    obtain rfl := dealt_noted hclerical hnotes
    refine square_of_removal evicts (k := ⟨a, r, found, left⟩) hclerical (fun c => ?_) announced
      ?_ (fun _ => ?_) ?_
    · rw [hremoved]
      split
      · next hnone =>
        rw [List.isEmpty_iff.1 hnone]
        split <;> rfl
      · cases c <;> simp [Mark.adds, Bookkeeping.adds]
    · refine List.countP_eq_zero.2 fun e mem => ?_
      obtain ⟨k, -, rfl⟩ := List.mem_map.1 mem
      exact Bool.false_ne_true
    · rw [hremoved, List.length_map]
    · have hevicts : (keys.map Event.evict).countP Event.isEvict = keys.length := by
        refine (List.countP_eq_length.2 fun e mem => ?_).trans (List.length_map ..)
        obtain ⟨k, -, rfl⟩ := List.mem_map.1 mem
        rfl
      rw [hevicts, hremoved]
      simp [rowsCleared, spares]
  | @cleared n told clears announced =>
    obtain ⟨found, left, rest, done, rfl, hrest⟩ := dealt
    obtain ⟨first, second, rfl, hnotes, htold⟩ := dealt_append.1 hrest
    obtain rfl := dealt_announced announced htold
    have hremoved : (⟨.removeEvery, n, found, left⟩ : Deal τ).removed = n :=
      (Transaction.removeEvery_commit done).1.symm
    have hclerical : ∀ m ∈ ((if n = 0 then [] else [.noted (.record .evictions n)]) ++
        [.noted .forgetSize] : List (Mark τ)), ∃ b, m = .noted b := by
      split <;> simp
    obtain rfl := dealt_noted hclerical hnotes
    refine square_of_removal (evicts_of_clears clears) (k := ⟨.removeEvery, n, found, left⟩)
      hclerical (fun c => ?_) announced rfl (fun spares => ?_) ?_
    · rw [hremoved]
      split
      · next hnone =>
        rw [hnone]
        cases c <;> rfl
      · cases c <;> simp [Mark.adds, Bookkeeping.adds]
    · cases spares.symm.trans clears
    · simp [rowsCleared, clears, Event.isEvict]
  | @swept before after a r sweeps idle sweep mute =>
    obtain ⟨first, second, rfl, hfirst, hsecond⟩ := dealt_append.1 dealt
    obtain ⟨found, left, rest, done, rfl, hrest⟩ := hsecond
    obtain ⟨hwrites, hevicts, hclears⟩ := idle_of_sweeps sweeps
    refine (square_of_mute (all_isMute_of_isIdle _ idle) hfirst).append
      (.dealt ?_ (square_of_mute mute hrest))
    refine square_of_idle rfl rfl (fun _ => rfl) (fun _ => rfl) rfl (fun _ _ => rfl) ?_ ?_ ?_
    all_goals simp [rowsWritten, rowsEvicted, rowsCleared, hwrites, hevicts, hclears]

/-! ## Lookups -/

omit [Instant τ] in
theorem isFound_ofDecoded (v : Value) : (Lookup.ofDecoded v).isFound = true := by
  cases v <;> rfl

theorem LooksUp.counted {key : Value} {k : Key} {refresh : Bool} {target : Option Target}
    {t : Trail τ} {r : Except Failure Answer} (h : LooksUp k refresh target t r) :
    noted .hits t.marks = (Call.get key refresh target).found r ∧
      noted .misses t.marks = (Call.get key refresh target).missed r := by
  have htouched {row : Row τ} {now : τ} {touched : List (Mark τ)} (c : Statistics.Counter)
      (h : Touched k refresh row now t.troubles touched) : noted c touched = 0 := by
    cases h <;> rfl
  have hswept {now : τ} {swept : List (Mark τ)} (c : Statistics.Counter)
      (h : Swept k now t.troubles swept) : noted c swept = 0 := by
    cases h <;> rfl
  cases h with
  | missing marks =>
    rw [marks]
    exact ⟨rfl, rfl⟩
  | expired dead sweep marks =>
    rw [marks, noted_append, noted_append, noted_append, noted_append, hswept _ sweep,
      hswept _ sweep]
    exact ⟨rfl, rfl⟩
  | @found row now touched v live touch decodes marks =>
    rw [marks, noted_append, noted_append, noted_append, noted_append, htouched _ touch,
      htouched _ touch]
    simp [Mark.adds, Bookkeeping.adds, Call.found, missed, isFound_ofDecoded]
  | undecodable live touch fails marks =>
    rw [marks, noted_append, noted_append, htouched _ touch, htouched _ touch]
    exact ⟨rfl, rfl⟩

omit [Instant τ] in
theorem noted_tallied (asked found : Nat) :
    noted .hits (tallied asked found : List (Mark τ)) = found ∧
      noted .misses (tallied asked found : List (Mark τ)) = (asked : Int) - found := by
  unfold tallied
  rw [noted_append, noted_append]
  constructor
  · split <;> split <;> simp_all [Mark.adds, Bookkeeping.adds]
  · split <;> split <;> simp_all [Mark.adds, Bookkeeping.adds]

/-- As many keys are found in a batch as values are decoded, and all others are missing. -/
theorem counted_found {keys : Value} {target : Option Target} {ks : List Key} {now : τ}
    (asked : Arguments.keys keys "get_all" = .ok ks) {t t' : Table τ}
    {rows : List (String × Row τ)}
    (fetched : Transaction.commit t (.fetchMany (ks.map (·.text))) = .ok (rows, t'))
    {values : List (String × Value)} (decoded : liveValues target now rows = .ok values) :
    (Call.getAll keys target).found (.ok (.found (ks.filterMap fun k =>
        (values.lookup k.text).map (k, ·)))) = values.length ∧
      (Call.getAll keys target).missed (.ok (.found (ks.filterMap fun k =>
        (values.lookup k.text).map (k, ·)))) + values.length = ks.length := by
  obtain rfl := Transaction.reply_fetchMany fetched
  have hlength := length_found_liveValues (Arguments.nodup_keys asked) (t.nodup_select _)
    (fun p mem => List.contains_iff_mem.1 (List.mem_filter.1 mem).2) decoded
  have hfst := map_fst_filterMap_lookup ks values
  refine ⟨?_, ?_⟩
  · show (ks.filterMap _).length = _
    rw [← hlength, ← hfst, List.length_map]
  · have hmissed : (Call.getAll keys target).missed (.ok (.found (ks.filterMap fun k =>
        (values.lookup k.text).map (k, ·)))) =
        (ks.filter fun k => !(values.lookup k.text).isSome).length := by
      simp only [missed, asked, hfst]
      refine congrArg List.length (List.filter_congr fun k hk => ?_)
      refine congrArg _ (Bool.eq_iff_iff.2 ?_)
      rw [List.contains_iff_mem, List.mem_filter]
      exact and_iff_right hk
    rw [hmissed, ← hlength, add_comm]
    exact (List.length_eq_length_filter_add _).symm

/-- What a call that looks for entries has noted as found and as missed is what it answers. -/
theorem Accounts.counted {c : Config τ} {t : Trail τ} {r : Except Failure Answer}
    (h : Accounts c call t r) (dealt : Dealt t.marks ks) (looks : call.looksUp = true) :
    noted .hits t.marks = call.found r ∧ noted .misses t.marks = call.missed r := by
  cases call with
  | get key refresh target =>
    rcases Vetted.cases h with ⟨f, -, rfl, rfl⟩ | ⟨k, -, hlooks⟩
    · exact ⟨rfl, rfl⟩
    · exact LooksUp.counted hlooks
  | getAll keys target =>
    rcases Vetted.cases h with ⟨f, -, rfl, rfl⟩ | ⟨asked, hasked, hrest⟩
    · exact ⟨rfl, rfl⟩
    split at hrest
    · next hnone =>
      obtain ⟨marks, rfl⟩ := hrest
      rw [marks]
      simp [Call.found, missed, hasked, List.isEmpty_iff.1 hnone]
    · obtain ⟨rows, now, hrest⟩ := hrest
      split at hrest
      · next values hvalues =>
        obtain ⟨rfl, marks⟩ := hrest
        rw [marks] at dealt
        obtain ⟨found, left, rest, fetched, -⟩ := dealt
        obtain ⟨hfound, hmissed⟩ := counted_found hasked fetched hvalues
        obtain ⟨hhits, hmisses⟩ := noted_tallied (τ := τ) asked.length values.length
        rw [marks, noted_append, noted_append, hhits, hmisses, hfound]
        refine ⟨by simp [Mark.adds], ?_⟩
        simp only [noted_cons, noted_nil, Mark.adds]
        omega
      · obtain ⟨rfl, marks⟩ := hrest
        rw [marks]
        exact ⟨rfl, rfl⟩
  | _ => cases looks

end

end Call

end ExpiringStore
