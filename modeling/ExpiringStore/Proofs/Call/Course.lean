import ExpiringStore.Proofs.Call.AccountedWrites
import ExpiringStore.Proofs.Codec.Payload
import ExpiringStore.Proofs.Table.Turnover

/-!
# The courses of calls

As far as payloads and events are concerned there are six courses that a call may take.  It leaves
all payloads where they are and tells nobody; it writes entries; it inserts one; it removes entries
on request; it empties the table; or it removes what has expired.  Whatever it changes it announces
right after, except the removal of what has expired, which nobody is told of.

    Concludes c call t r   →   Course call t.marks              (Concludes.course)
-/

namespace ExpiringStore

variable {τ : Type}

namespace Call

/-- Does a call count what it finds and what it misses? -/
def looksUp : Call → Bool
  | .get _ _ _ | .getAll _ _ => true
  | _ => false

def writes : Call → Bool
  | .put _ _ _ _ | .putIfAbsent _ _ _ _ | .putAll _ _ _ => true
  | _ => false

/-- Does a call remove entries on request? -/
def evicts : Call → Bool
  | .evict _ | .evictAll _ | .evictByPattern _ | .clear => true
  | _ => false

/-- Does a call empty the table? -/
def clears : Call → Bool
  | .clear => true
  | _ => false

/-- Does a call remove what has expired? -/
def sweeps : Call → Bool
  | .get _ _ _ | .cleanupExpired => true
  | _ => false

end Call

namespace Transaction

/-- Is it certain of a committed transaction that all payloads are where they were? -/
def isStill : (a : Transaction τ) → a.Reply → Bool
  | .touch _ _, _ | .extend _ _ _ _, _ => true
  | a, r => a.isQuiet r

/-- Does a transaction remove only what has expired? -/
def isSweep : Transaction τ → Bool
  | .removeExpiredKey _ _ | .removeExpired _ => true
  | _ => false

section
variable [Instant τ] {t t' : Table τ}

omit [Instant τ] in
theorem puts_of_isStill {a : Transaction τ} {r : a.Reply} (still : a.isStill r = true)
    (key : String) : a.puts key r = none := by
  cases a with
  | write => cases still
  | writeIfAbsent =>
    cases r with
    | inserted => cases still
    | present | neither => rfl
  | _ => rfl

theorem takes_of_isStill {a : Transaction τ} {r : a.Reply} (still : a.isStill r = true)
    (key : String) (row : Row τ) : a.takes key row = false := by
  cases a with
  | remove | removeExpiredKey | removeMany | removeMatching | removeEvery | removeExpired =>
    cases still
  | _ => rfl

/-- A commit that is still leaves all payloads where they are. -/
theorem payload?_of_isStill {a : Transaction τ} {r : a.Reply} (still : a.isStill r = true)
    (h : commit t a = .ok (r, t')) (key : String) : t'.payload? key = t.payload? key :=
  payload?_of_spared h (puts_of_isStill still key) fun row _ => takes_of_isStill still key row

end

theorem isStill_of_isQuiet {a : Transaction τ} {r : a.Reply} (quiet : a.isQuiet r = true) :
    a.isStill r = true := by
  cases a with
  | touch | extend => cases quiet
  | _ => exact quiet

end Transaction

/-- A mark of a step that leaves all payloads where they are, and of which nobody is told.  Found
and missed entries are noted only by those who look for some. -/
def Mark.isMute (looksUp : Bool) : Mark τ → Bool
  | .read _ | .recalled _ => true
  | .committed a r => a.isStill r
  | .noted (.record .hits _) | .noted (.record .misses _) => looksUp
  | .noted (.record _ _) => false
  | .noted _ => true
  | .listed _ | .told _ _ => false

theorem Mark.isMute_of_isIdle {looksUp : Bool} {m : Mark τ} (idle : m.isIdle = true) :
    m.isMute looksUp = true := by
  cases m with
  | read | recalled => rfl
  | committed a r => exact Transaction.isStill_of_isQuiet idle
  | noted | listed | told => cases idle

theorem all_isMute_of_isIdle (looksUp : Bool) {ms : List (Mark τ)}
    (idle : ms.all Mark.isIdle = true) : ms.all (Mark.isMute looksUp) = true :=
  List.all_eq_true.2 fun m mem => Mark.isMute_of_isIdle (List.all_eq_true.1 idle m mem)

namespace Call

variable [Instant τ]

/-- The courses of a call. -/
inductive Course (call : Call) : List (Mark τ) → Prop
  | mute {ms : List (Mark τ)} (mute : ms.all (Mark.isMute call.looksUp) = true) : Course call ms
  | wrote {w : WrittenMany} {now : τ} {told : List (Mark τ)} (writes : call.writes = true)
      (encoded : ∀ e ∈ w.entries, Payload.encode e.value (some e.key) = .ok e.payload)
      (announced : Announced (w.entries.map fun e => .put e.key e.value) told) :
      Course call ([.read now, .committed (.write (w.rows now)) (),
        .noted (.record .puts w.entries.length), .noted .forgetSize] ++ told)
  | inserted {before : List (Mark τ)} {w : Written} {value : Value} (now : τ)
      {told : List (Mark τ)} (writes : call.writes = true) (idle : before.all Mark.isIdle = true)
      (encoded : Payload.encode value (some w.key) = .ok w.payload)
      (announced : Announced [.put w.key value] told) :
      Course call (before ++ [.committed (.writeIfAbsent w.key.text (w.row now) now) .inserted,
        .noted (.record .puts 1), .noted .forgetSize] ++ told)
  | removed {a : Transaction τ} {r : a.Reply} (keys : List Key) {told : List (Mark τ)}
      (evicts : call.evicts = true) (spares : call.clears = false) (evicting : a.evicts = true)
      (named : keys.map (·.text) = a.evicted r)
      (announced : Announced (keys.map .evict) told) :
      Course call (.committed a r :: (if keys.isEmpty then []
        else [.noted (.record .evictions keys.length), .noted .forgetSize]) ++ told)
  | cleared {n : Nat} {told : List (Mark τ)} (clears : call.clears = true)
      (announced : Announced [.clear] told) :
      Course call (.committed .removeEvery n ::
        ((if n = 0 then [] else [.noted (.record .evictions n)]) ++ [.noted .forgetSize]) ++ told)
  | swept (before : List (Mark τ)) {after : List (Mark τ)} {a : Transaction τ} {r : a.Reply}
      (sweeps : call.sweeps = true) (idle : before.all Mark.isIdle = true)
      (sweep : a.isSweep = true) (mute : after.all (Mark.isMute call.looksUp) = true) :
      Course call (before ++ .committed a r :: after)

theorem Course.of_marks {call : Call} {t : Trail τ} {ms : List (Mark τ)} (ht : t.marks = ms)
    (h : Course call ms) : Course call t.marks := ht ▸ h

/-- Refused arguments leave no marks; what remains is what follows checked ones. -/
theorem Vetted.course {α : Type} {x : Except Failure α} {call : Call} {t : Trail τ}
    {r : Except Failure Answer} {rest : α → Prop} (h : Vetted x t r rest)
    (hrest : ∀ a, x = .ok a → rest a → Course call t.marks) : Course call t.marks := by
  rcases h.cases with ⟨f, -, rfl, -⟩ | ⟨a, hx, h⟩
  · exact .mute rfl
  · exact hrest a hx h

theorem LooksUp.course {key : Value} {k : Key} {refresh : Bool} {target : Option Target}
    {t : Trail τ} {r : Except Failure Answer} (h : LooksUp k refresh target t r) :
    Course (.get key refresh target) t.marks := by
  have htouched {row : Row τ} {now : τ} {touched : List (Mark τ)}
      (h : Touched k refresh row now t.troubles touched) :
      touched.all (Mark.isMute (Call.get key refresh target).looksUp) = true := by
    cases h <;> rfl
  cases h with
  | missing marks => exact .of_marks marks (.mute rfl)
  | @expired row now swept dead sweep marks =>
    rw [marks]
    cases sweep with
    | removed => exact .swept [_, _] rfl rfl rfl rfl
    | gone => exact .swept [_, _] rfl rfl rfl rfl
    | missed => exact .mute rfl
  | found live touch decodes marks =>
    refine .of_marks marks (.mute ?_)
    rw [List.all_append, List.all_append, htouched touch]
    rfl
  | undecodable live touch fails marks =>
    refine .of_marks marks (.mute ?_)
    rw [List.all_append, htouched touch]
    rfl

theorem Inserts.course {call : Call} {w : Written} {value : Value} {left : Nat}
    {ms : List (Mark τ)} {r : Except Failure Answer} (h : Inserts w value left ms r)
    (writes : call.writes = true) (encoded : Payload.encode value (some w.key) = .ok w.payload)
    (before : List (Mark τ)) (idle : before.all Mark.isIdle = true) :
    Course call (before ++ ms) := by
  induction h generalizing before with
  | unsettled =>
    rw [List.append_nil]
    exact .mute (all_isMute_of_isIdle _ idle)
  | @inserted left now told announced =>
    have hidle : (before ++ [Mark.read now]).all Mark.isIdle = true := by simp [idle, Mark.isIdle]
    have hcourse : Course call _ := .inserted now writes hidle encoded announced
    simpa using hcourse
  | present left now row =>
    refine .mute (all_isMute_of_isIdle _ ?_)
    simp [idle, Mark.isIdle, Transaction.isQuiet]
  | @neither left now ms r rest ih =>
    let tried : Transaction τ := .writeIfAbsent w.key.text (w.row now) now
    have hmore : before ++ .read now :: .committed tried .neither :: ms =
        (before ++ [.read now, .committed tried .neither]) ++ ms := by simp
    rw [hmore]
    exact ih _ (by simp [idle, tried, Mark.isIdle, Transaction.isQuiet])

omit [Instant τ] in
/-- What is left of the removal of keys, as what is left of the removal of texts. -/
theorem Removed.told {keys : List String} {ms : List (Mark τ)} (h : Removed keys ms) :
    ∃ told, Announced ((keys.map Key.plain).map .evict) told ∧
      ms = (if (keys.map Key.plain).isEmpty then []
        else [.noted (.record .evictions (keys.map Key.plain).length), .noted .forgetSize]) ++
          told := by
  cases h with
  | none => exact ⟨[], .nil, rfl⟩
  | @some _ told any announced =>
    refine ⟨told, by rw [List.map_map]; exact announced, ?_⟩
    rw [if_neg (by simpa using any), List.length_map]

theorem course_of_removed {call : Call} {a : Transaction τ} {r : a.Reply} {keys : List String}
    {ms : List (Mark τ)} (evicts : call.evicts = true) (spares : call.clears = false)
    (evicting : a.evicts = true) (named : keys = a.evicted r) (h : Removed keys ms) :
    Course call (.committed a r :: ms) := by
  obtain ⟨told, announced, rfl⟩ := h.told
  refine .removed _ evicts spares evicting ?_ announced
  rw [List.map_map, ← named]
  exact List.map_id keys

theorem Accounts.course {c : Config τ} {call : Call} {t : Trail τ} {r : Except Failure Answer}
    (h : Accounts c call t r) : Course call t.marks := by
  cases call with
  | get key refresh target => exact Vetted.course h fun k _ hrest => hrest.course
  | containsKey key =>
    refine Vetted.course h fun k _ hrest => ?_
    obtain ⟨now, b, marks, -⟩ := hrest
    exact .of_marks marks (.mute rfl)
  | getAll keys target =>
    refine Vetted.course h fun ks _ hrest => ?_
    split at hrest
    · exact .of_marks hrest.1 (.mute rfl)
    · obtain ⟨rows, now, hrest⟩ := hrest
      split at hrest
      · refine .of_marks hrest.2 (.mute ?_)
        unfold tallied
        split <;> split <;> rfl
      · exact .of_marks hrest.2 (.mute rfl)
  | getKeys pattern =>
    refine Vetted.course h fun g _ hrest => ?_
    obtain ⟨now, keys, marks, -⟩ := hrest
    exact .of_marks marks (.mute rfl)
  | getAllKeys =>
    obtain ⟨now, keys, marks, -⟩ := h
    exact .of_marks marks (.mute rfl)
  | getRemainingTtl key =>
    refine Vetted.course h fun k _ hrest => ?_
    rcases hrest with ⟨deeds, hfetched, marks, -⟩ | ⟨row, deeds, now, hfetched, marks, -⟩
    · cases hfetched <;> exact .of_marks marks (.mute rfl)
    · cases hfetched
      exact .of_marks marks (.mute rfl)
  | getTtlPolicy key =>
    refine Vetted.course h fun k _ hrest => ?_
    obtain ⟨deeds, found, hfetched, marks, -⟩ := hrest
    cases hfetched <;> exact .of_marks marks (.mute rfl)
  | size =>
    replace h : Sizes c t r := h
    cases h with
    | recalled counted fresh marks => exact .of_marks marks (.mute rfl)
    | counted stale marks => exact .of_marks marks (.mute rfl)
  | put key value ttl policy =>
    refine Vetted.course h fun w hw hrest => ?_
    obtain ⟨now, told, announced, marks, -⟩ := hrest
    let one : WrittenMany := ⟨[⟨w.key, value, w.payload⟩], w.ttl, w.policy⟩
    refine .of_marks marks (.wrote (w := one) rfl (fun e mem => ?_) announced)
    obtain rfl := List.mem_singleton.1 mem
    exact Arguments.written_encoded hw
  | putIfAbsent key value ttl policy =>
    refine Vetted.course h fun w hw hrest => ?_
    exact Inserts.course hrest rfl (Arguments.written_encoded hw) [] rfl
  | putAll entries ttl policy =>
    refine Vetted.course h fun w hw hrest => ?_
    split at hrest
    · obtain ⟨now, told, announced, marks, -⟩ := hrest
      exact .of_marks marks (.wrote rfl (Arguments.writtenMany_encoded hw) announced)
    · exact .of_marks hrest.1 (.mute rfl)
  | refreshTtl key ttl policy =>
    refine Vetted.course h fun w _ hrest => ?_
    obtain ⟨now, b, marks, -⟩ := hrest
    refine .of_marks marks (.mute ?_)
    split <;> rfl
  | evict key =>
    refine Vetted.course h fun k _ hrest => ?_
    rcases hrest with ⟨marks, -⟩ | ⟨told, announced, marks, -⟩
    · exact .of_marks marks (.removed [] rfl rfl rfl rfl .nil)
    · exact .of_marks marks (.removed [k] rfl rfl rfl rfl announced)
  | evictAll keys =>
    refine Vetted.course h fun ks _ hrest => ?_
    split at hrest
    · exact .of_marks hrest.1 (.mute rfl)
    · obtain ⟨removed, told, hremoved, marks, -⟩ := hrest
      exact .of_marks marks (course_of_removed rfl rfl rfl rfl hremoved)
  | evictByPattern pattern =>
    refine Vetted.course h fun g _ hrest => ?_
    obtain ⟨removed, told, hremoved, marks, -⟩ := hrest
    exact .of_marks marks (course_of_removed rfl rfl rfl rfl hremoved)
  | clear =>
    obtain ⟨n, told, announced, marks, -⟩ := h
    refine .of_marks (marks.trans ?_) (.cleared (n := n) rfl announced)
    simp
  | cleanupExpired =>
    obtain ⟨now, n, -, marks⟩ := h
    refine .of_marks marks (.swept [_] rfl rfl rfl ?_)
    split <;> rfl

/-- However a call concludes, it has taken one of the courses. -/
theorem Concludes.course [Delay τ] {c : Config τ} {call : Call} {t : Trail τ}
    {r : Except Failure Answer} (h : Concludes c call t r) : Course call t.marks := by
  rcases h with ⟨f, -, idle, -⟩ | haccount
  · exact .mute (all_isMute_of_isIdle _ idle)
  · exact haccount.course

end Call

end ExpiringStore
