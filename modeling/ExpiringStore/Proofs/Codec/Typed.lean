import ExpiringStore.Codec.Catalog
import ExpiringStore.Proofs.Codec.Dates
import ExpiringStore.Proofs.Codec.RoundTrip
import ExpiringStore.Proofs.Codec.Sets

/-!
# Values that are read back as their type

The stored form of a value does not tell its type: a tuple and a set become lists, a date and a
member become texts, and a record becomes a dictionary.  Read in the shape of its type, it becomes
the value again.  That is so for every shape that is faithful: it says what its items are, its sets
are sets of whole numbers, and its unions are unions of scalars that are stored as they are.

    s.Is v                                     v is exactly of the shape s
    s.isFaithful level, s.Is v    →    v, stored at the level, is read back in s    (readsBack)
-/

namespace ExpiringStore

namespace Shape

/-! ## Values of a shape -/

mutual

/-- Is a value exactly of a shape, and not only one that can be turned into it? -/
def Is : Shape → Value → Prop
  | .integer, v => ∃ n, v = .int n
  | .double, v => ∃ x, v = .float x
  | .text, v => ∃ s, v = .str s
  | .truth, v => ∃ b, v = .bool b
  | .date, v => ∃ d : Date, v = .date d ∧ d.IsValid
  | .anyList, v => ∃ items, v = .list items
  | .anyDict, v => ∃ entries, v = .dict entries
  | .list item, v => ∃ items, v = .list items ∧ ∀ w ∈ items, Is item w
  | .set item, v => ∃ items, v = .setOf items ∧ ∀ w ∈ items, Is item w
  | .dict item, v => ∃ entries : List (String × Value),
      v = .dict (entries.map fun e => (.str e.1, e.2)) ∧ (entries.map (·.1)).Nodup ∧
        ∀ e ∈ entries, Is item e.2
  | .tuple items, v => ∃ values, v = .tuple values ∧ AreInOrder items values
  | .nullable inner, v => v = .none ∨ Is inner v
  | .union members, v => IsOne members v
  | .words allowed, v => ∃ s ∈ allowed, v = .str s
  | .member _ members, v => ∃ m ∈ members, v = .member m
  | .record kind type fields, v => ∃ given, v = .record kind type given ∧ AreFields fields given

def AreInOrder : List Shape → List Value → Prop
  | [], values => values = []
  | s :: shapes, values => ∃ v rest, values = v :: rest ∧ Is s v ∧ AreInOrder shapes rest

/-- Is a value of one of the shapes? -/
def IsOne : List Shape → Value → Prop
  | [], _ => False
  | s :: shapes, v => Is s v ∨ IsOne shapes v

def AreFields : List (String × Shape) → List (String × Value) → Prop
  | [], given => given = []
  | (name, s) :: fields, given => ∃ v rest, given = (name, v) :: rest ∧ Is s v ∧
      AreFields fields rest

end

/-! ## Faithful shapes -/

/-- Is this a scalar that structured data has a form of its own for, told from all others? -/
def isNative : Shape → Bool
  | .integer | .text | .truth => true
  | _ => false

mutual

/-- Is every value of a shape that stands at a level read back as it was? -/
def isFaithful (level : Nat) : Shape → Bool
  | .integer | .double | .text | .truth | .date | .words _ => level ≤ maxNesting
  | .anyList | .anyDict => false
  | .list item | .dict item => level ≤ maxNesting && isFaithful (level + 1) item
  | .set item => level < maxNesting && (item matches .integer)
  | .tuple items => level ≤ maxNesting && areFaithful (level + 1) items
  | .nullable inner => level ≤ maxNesting && isFaithful level inner
  | .union members => level ≤ maxNesting && members.all isNative
  | .member _ members => level < maxNesting && (members.map (·.text)).Nodup
  | .record kind _ fields => level ≤ maxNesting && kind == .declared &&
      (fields.map (·.1)).Nodup && fieldsFaithful fields

def areFaithful (level : Nat) : List Shape → Bool
  | [] => true
  | s :: shapes => isFaithful level s && areFaithful level shapes

/-- The fields of a declared record begin at a level of their own. -/
def fieldsFaithful : List (String × Shape) → Bool
  | [] => true
  | (_, s) :: fields => isFaithful 0 s && fieldsFaithful fields

end

/-- A value that stands at a level is stored, and read back in a shape as it was. -/
def ReadsBack (level : Nat) (s : Shape) (v : Value) : Prop :=
  ∃ j, v.toJsonAt level = .ok j ∧ (j = .null → v = .none) ∧ s.read (.ofJson j) = .ok v

/-! ## Scalars -/

section
variable {level : Nat} {s : Shape} {v : Value}

theorem ofJson_native (native : s.isNative = true) (is : s.Is v) (room : level ≤ maxNesting) :
    s.holds v = true ∧ ∃ j, v.toJsonAt level = .ok j ∧ j ≠ .null ∧ .ofJson j = v := by
  cases s with
  | integer =>
    obtain ⟨n, rfl⟩ := is
    exact ⟨rfl, .int n, by unfold Value.toJsonAt; exact Value.within_of_le _ room, nofun, rfl⟩
  | text =>
    obtain ⟨t, rfl⟩ := is
    exact ⟨rfl, .str t, by unfold Value.toJsonAt; exact Value.within_of_le _ room, nofun, rfl⟩
  | truth =>
    obtain ⟨b, rfl⟩ := is
    exact ⟨rfl, .bool b, by unfold Value.toJsonAt; exact Value.within_of_le _ room, nofun, rfl⟩
  | _ => cases native

theorem read_native (native : s.isNative = true) (is : s.Is v) : s.read v = .ok v := by
  cases s with
  | integer | text | truth =>
    obtain ⟨x, rfl⟩ := is
    rfl
  | _ => cases native

theorem ReadsBack.of_native (native : s.isNative = true) (is : s.Is v)
    (room : level ≤ maxNesting) : s.ReadsBack level v := by
  obtain ⟨-, j, hj, hnull, hv⟩ := ofJson_native native is room
  exact ⟨j, hj, fun h => absurd h hnull, by rw [hv]; exact read_native native is⟩

theorem ReadsBack.of_text {t : String} (stored : v.toJsonAt level = .ok (.str t))
    (read : s.read (.str t) = .ok v) : s.ReadsBack level v := ⟨.str t, stored, nofun, read⟩

theorem ReadsBack.double (x : Float) (room : level ≤ maxNesting) :
    Shape.double.ReadsBack level (.float x) := by
  refine ⟨.float x, ?_, nofun, rfl⟩
  unfold Value.toJsonAt
  exact Value.within_of_le _ room

theorem ReadsBack.date {d : Date} (valid : d.IsValid) (room : level ≤ maxNesting) :
    Shape.date.ReadsBack level (.date d) := by
  refine .of_text (t := d.text) ?_ ?_
  · unfold Value.toJsonAt
    exact Value.within_of_le _ room
  · unfold Shape.read
    rw [Date.date?_text valid]

theorem ReadsBack.word {allowed : List String} {t : String} (mem : t ∈ allowed)
    (room : level ≤ maxNesting) : (Shape.words allowed).ReadsBack level (.str t) := by
  refine .of_text (t := t) ?_ ?_
  · unfold Value.toJsonAt
    exact Value.within_of_le _ room
  · unfold Shape.read
    exact if_pos (List.contains_iff_mem.2 mem)

/-- A member of an enumeration is found by its text, if no other has it. -/
theorem find?_member {members : List Member} (texts : (members.map (·.text)).Nodup) {m : Member}
    (mem : m ∈ members) : members.find? (·.text == m.text) = some m := by
  induction members with
  | nil => cases mem
  | cons m' rest ih =>
    obtain ⟨hfirst, hrest⟩ := List.nodup_cons.1 texts
    rcases List.mem_cons.1 mem with rfl | mem
    · exact List.find?_cons_of_pos (beq_self_eq_true _)
    · have hne : m'.text ≠ m.text := fun h => hfirst (List.mem_map.2 ⟨m, mem, h.symm⟩)
      rw [List.find?_cons_of_neg (by simpa using hne)]
      exact ih hrest mem

theorem ReadsBack.member {type : String} {members : List Member}
    (texts : (members.map (·.text)).Nodup) {m : Member} (mem : m ∈ members)
    (room : level < maxNesting) : (Shape.member type members).ReadsBack level (.member m) := by
  refine .of_text (t := m.text) ?_ ?_
  · unfold Value.toJsonAt
    exact Value.within_of_le _ room
  · unfold Shape.read
    simp only [Scalar.string?, Value.text?]
    rw [find?_member texts mem]

end

/-! ## Lists and sets -/

section
variable {level : Nat} {item : Shape}

theorem readsBack_items {items : List Value} (members : ∀ v ∈ items, ReadsBack level item v) :
    ∃ js, Value.toJsonItems level items = .ok js ∧
      gather ((Value.ofJsonItems js).map (read item)) = .ok items := by
  induction items with
  | nil => exact ⟨[], rfl, rfl⟩
  | cons v rest ih =>
    obtain ⟨j, hj, -, hread⟩ := members v List.mem_cons_self
    obtain ⟨js, hjs, hrest⟩ := ih fun w mem => members w (List.mem_cons_of_mem _ mem)
    refine ⟨j :: js, ?_, ?_⟩
    · unfold Value.toJsonItems
      rw [hj, hjs]
    · rw [Value.ofJsonItems, List.map_cons, hread, gather, hrest]
      rfl

theorem ReadsBack.list {items : List Value} (room : level ≤ maxNesting)
    (members : ∀ v ∈ items, ReadsBack (level + 1) item v) :
    (Shape.list item).ReadsBack level (.list items) := by
  obtain ⟨js, hjs, hread⟩ := readsBack_items members
  refine ⟨.array js, ?_, nofun, ?_⟩
  · unfold Value.toJsonAt
    rw [Value.within_of_le _ room, hjs]
    rfl
  · unfold Value.ofJson Shape.read
    simp only [Value.items?, hread]
    rfl

/-- Values that are whole numbers, as the numbers that they are. -/
theorem exists_ints {items : List Value} (members : ∀ v ∈ items, Is .integer v) :
    ∃ ns : List Int, items = ns.map .int := by
  induction items with
  | nil => exact ⟨[], rfl⟩
  | cons v rest ih =>
    obtain ⟨n, rfl⟩ := members v List.mem_cons_self
    obtain ⟨ns, rfl⟩ := ih fun w mem => members w (List.mem_cons_of_mem _ mem)
    exact ⟨n :: ns, rfl⟩

/-- The items of a set of whole numbers make up that set again. -/
theorem ReadsBack.set {items : List Value} (room : level < maxNesting)
    (members : ∀ v ∈ items, Is .integer v) :
    (Shape.set .integer).ReadsBack level (.setOf items) := by
  obtain ⟨ns, rfl⟩ := exists_ints members
  obtain ⟨ms, hms, hagain⟩ := Value.setOf_ints ns
  have hints : ∀ w ∈ ms.map Value.int, ReadsBack (level + 1) .integer w := by
    intro w mem
    obtain ⟨m, -, rfl⟩ := List.mem_map.1 mem
    exact .of_native rfl ⟨m, rfl⟩ room
  obtain ⟨js, hjs, hread⟩ := readsBack_items hints
  rw [hms]
  refine ⟨.array js, ?_, nofun, ?_⟩
  · unfold Value.toJsonAt
    rw [Value.within_of_le _ (Nat.le_of_lt room), hjs]
    rfl
  · unfold Value.ofJson Shape.read
    simp only [Value.items?, hread]
    exact congrArg Except.ok hagain

/-! ## Dictionaries and records -/

/-- Entries are read back one by one, under their names. -/
theorem readsBack_entries {entries : List (String × Value)}
    (members : ∀ e ∈ entries, ReadsBack level item e.2) :
    ∃ fields, Value.toJsonEntries level (entries.map fun e => (.str e.1, e.2)) = .ok fields ∧
      fields.map (·.1) = entries.map (·.1) ∧
      (∃ vs, gather ((Value.ofJsonFields fields).flatMap fun (k, w) =>
        [keyText k, read item w]) = .ok vs) ∧
      ((Value.ofJsonFields fields).map fun (k, w) =>
        ((keyText k).toOption.getD k, (read item w).toOption.getD w)) =
          entries.map fun e => (.str e.1, e.2) := by
  induction entries with
  | nil => exact ⟨[], rfl, rfl, ⟨[], rfl⟩, rfl⟩
  | cons e rest ih =>
    obtain ⟨name, v⟩ := e
    obtain ⟨j, hj, -, hread⟩ := members (name, v) List.mem_cons_self
    obtain ⟨fields, hfields, hnames, ⟨vs, hvs⟩, hrest⟩ :=
      ih fun e mem => members e (List.mem_cons_of_mem _ mem)
    have hkey : keyText (.str name) = .ok (.str name) := rfl
    have hname : Value.fieldName? (.str name) = .ok name := by unfold Value.fieldName?; rfl
    refine ⟨(name, j) :: fields, ?_, ?_, ⟨.str name :: v :: vs, ?_⟩, ?_⟩
    · rw [List.map_cons]
      unfold Value.toJsonEntries
      rw [hname, hj, hfields]
    · rw [List.map_cons, List.map_cons, hnames]
    · rw [Value.ofJsonFields, List.flatMap_cons]
      simp only [hkey, hread, List.cons_append, List.nil_append, gather, hvs]
      rfl
    · rw [Value.ofJsonFields, List.map_cons, List.map_cons, hrest]
      simp only [hkey, hread]
      rfl

theorem ReadsBack.dict {entries : List (String × Value)} (room : level ≤ maxNesting)
    (names : (entries.map (·.1)).Nodup)
    (members : ∀ e ∈ entries, ReadsBack (level + 1) item e.2) :
    (Shape.dict item).ReadsBack level (.dict (entries.map fun e => (.str e.1, e.2))) := by
  obtain ⟨fields, hfields, hnames, ⟨vs, hvs⟩, hentries⟩ := readsBack_entries members
  refine ⟨.object fields, ?_, nofun, ?_⟩
  · unfold Value.toJsonAt
    rw [Value.within_of_le _ room, hfields]
    show Except.ok (Json.object (Json.fieldsOf fields)) = _
    rw [Json.fieldsOf_of_nodup (hnames ▸ names)]
  · unfold Value.ofJson Shape.read
    simp only [hvs, hentries]

end

/-- The value of a field is found by its name, if no other field has it. -/
theorem entry?_ofJsonFields {pairs : List (String × Json)} (names : (pairs.map (·.1)).Nodup)
    {f : String × Json} (mem : f ∈ pairs) :
    Value.entry? f.1 (Value.ofJsonFields pairs) = some (.ofJson f.2) := by
  induction pairs with
  | nil => cases mem
  | cons g rest ih =>
    obtain ⟨hg, hrest⟩ := List.nodup_cons.1 names
    rw [Value.ofJsonFields, Value.entry?]
    rcases List.mem_cons.1 mem with rfl | mem
    · rw [if_pos (by simp [Value.text?])]
    · have hne : g.1 ≠ f.1 := fun h => hg (List.mem_map.2 ⟨f, mem, h.symm⟩)
      rw [if_neg (by simpa [Value.text?] using hne)]
      exact ih hrest mem

/-- The stored form of a record's fields: each is read back wherever it is found by its name. -/
def FieldsReadBack (fields : List (String × Shape)) (given : List (String × Value)) : Prop :=
  ∃ pairs, Value.toJsonFields 0 given = .ok pairs ∧
    pairs.map (·.1) = fields.map (·.1) ∧ given.map (·.1) = fields.map (·.1) ∧
    ∀ entries, (∀ f ∈ pairs, Value.entry? f.1 entries = some (.ofJson f.2)) →
      gather (readFields fields entries) = .ok (given.map (·.2))

theorem FieldsReadBack.cons {name : String} {s : Shape} {fields : List (String × Shape)}
    {v : Value} {given : List (String × Value)} (first : s.ReadsBack 0 v)
    (others : FieldsReadBack fields given) :
    FieldsReadBack ((name, s) :: fields) ((name, v) :: given) := by
  obtain ⟨j, hj, -, hread⟩ := first
  obtain ⟨pairs, hpairs, hnames, hgiven, hrest⟩ := others
  refine ⟨(name, j) :: pairs, ?_, ?_, ?_, fun entries found => ?_⟩
  · unfold Value.toJsonFields
    rw [hj, hpairs]
  · rw [List.map_cons, List.map_cons, hnames]
  · rw [List.map_cons, List.map_cons, hgiven]
  · have hfirst := found (name, j) List.mem_cons_self
    have hothers := hrest entries fun f mem => found f (List.mem_cons_of_mem _ mem)
    rw [readFields, hfirst]
    simp only [hread, gather, hothers]
    rfl

theorem ReadsBack.record {level : Nat} {type : String} {fields : List (String × Shape)}
    {given : List (String × Value)} (room : level ≤ maxNesting)
    (names : (fields.map (·.1)).Nodup) (members : FieldsReadBack fields given) :
    (Shape.record .declared type fields).ReadsBack level (.record .declared type given) := by
  obtain ⟨pairs, hpairs, hnames, hgiven, hread⟩ := members
  refine ⟨.object pairs, ?_, nofun, ?_⟩
  · unfold Value.toJsonAt
    rw [Value.within_of_le _ room]
    simp only [hpairs]
    show Except.ok (Json.object (Json.fieldsOf pairs)) = _
    rw [Json.fieldsOf_of_nodup (hnames ▸ names)]
  · have hvalues := hread _ fun f mem => entry?_ofJsonFields (hnames ▸ names) mem
    unfold Value.ofJson Shape.read
    simp only [strayKeys, List.append_nil, hvalues]
    show Except.ok (Value.record .declared type ((fields.map (·.1)).zip (given.map (·.2)))) = _
    rw [← List.zip_of_prod hgiven rfl]

/-! ## Tuples, unions and what may be none -/

section
variable {level : Nat}

/-- Values by position, each read back in the shape of its place. -/
def InOrderReadBack (level : Nat) (shapes : List Shape) (values : List Value) : Prop :=
  ∃ js, Value.toJsonItems level values = .ok js ∧
    (Value.ofJsonItems js).length = shapes.length ∧
    gather (readInOrder shapes (Value.ofJsonItems js)) = .ok values

theorem InOrderReadBack.cons {s : Shape} {shapes : List Shape} {v : Value} {values : List Value}
    (first : s.ReadsBack level v) (others : InOrderReadBack level shapes values) :
    InOrderReadBack level (s :: shapes) (v :: values) := by
  obtain ⟨j, hj, -, hread⟩ := first
  obtain ⟨js, hjs, hlength, hrest⟩ := others
  refine ⟨j :: js, ?_, ?_, ?_⟩
  · unfold Value.toJsonItems
    rw [hj, hjs]
  · rw [Value.ofJsonItems, List.length_cons, List.length_cons, hlength]
  · rw [Value.ofJsonItems, readInOrder, hread, gather, hrest]
    rfl

theorem ReadsBack.tuple {shapes : List Shape} {values : List Value} (room : level ≤ maxNesting)
    (members : InOrderReadBack (level + 1) shapes values) :
    (Shape.tuple shapes).ReadsBack level (.tuple values) := by
  obtain ⟨js, hjs, hlength, hread⟩ := members
  refine ⟨.array js, ?_, nofun, ?_⟩
  · unfold Value.toJsonAt
    rw [Value.within_of_le _ room, hjs]
    rfl
  · unfold Value.ofJson Shape.read
    simp only [Value.items?, hlength, Nat.lt_irrefl, if_false, hread]
    rfl

theorem ReadsBack.none {inner : Shape} (room : level ≤ maxNesting) :
    (Shape.nullable inner).ReadsBack level .none := by
  refine ⟨.null, ?_, fun _ => rfl, rfl⟩
  unfold Value.toJsonAt
  exact Value.within_of_le _ room

theorem ReadsBack.nullable {inner : Shape} {v : Value} (h : inner.ReadsBack level v) :
    (Shape.nullable inner).ReadsBack level v := by
  obtain ⟨j, hj, hnull, hread⟩ := h
  refine ⟨j, hj, hnull, ?_⟩
  cases j with
  | null =>
    rw [hnull rfl]
    rfl
  | _ => exact hread

/-- A value of a union of native scalars is of one of them already, and stays of that one. -/
theorem ReadsBack.union {members : List Shape} (native : members.all isNative = true)
    {s : Shape} (mem : s ∈ members) {v : Value} (is : s.Is v) (room : level ≤ maxNesting) :
    (Shape.union members).ReadsBack level v := by
  obtain ⟨holds, j, hj, hnull, hv⟩ := ofJson_native (List.all_eq_true.1 native s mem) is room
  refine ⟨j, hj, fun h => absurd h hnull, ?_⟩
  rw [hv]
  unfold Shape.read
  exact if_pos (List.any_eq_true.2 ⟨s, mem, holds⟩)

theorem IsOne.exists {members : List Shape} {v : Value} (one : IsOne members v) :
    ∃ s ∈ members, s.Is v := by
  induction members with
  | nil => exact one.elim
  | cons s rest ih =>
    rcases one with is | one
    · exact ⟨s, List.mem_cons_self, is⟩
    · obtain ⟨s', mem, is⟩ := ih one
      exact ⟨s', List.mem_cons_of_mem _ mem, is⟩

end

/-! ## All shapes -/

mutual

/-- A value of a faithful shape is read back as it was. -/
theorem readsBack {level : Nat} {v : Value} :
    (s : Shape) → s.isFaithful level = true → s.Is v → s.ReadsBack level v
  | .integer, faithful, is | .text, faithful, is | .truth, faithful, is => by
    unfold isFaithful at faithful
    exact .of_native rfl is (of_decide_eq_true faithful)
  | .double, faithful, is => by
    unfold isFaithful at faithful
    obtain ⟨x, rfl⟩ := is
    exact .double x (of_decide_eq_true faithful)
  | .date, faithful, is => by
    unfold isFaithful at faithful
    obtain ⟨d, rfl, valid⟩ := is
    exact .date valid (of_decide_eq_true faithful)
  | .words allowed, faithful, is => by
    unfold isFaithful at faithful
    obtain ⟨t, mem, rfl⟩ := is
    exact .word mem (of_decide_eq_true faithful)
  | .member type members, faithful, is => by
    unfold isFaithful at faithful
    obtain ⟨hroom, htexts⟩ := Bool.and_eq_true_iff.1 faithful
    obtain ⟨m, mem, rfl⟩ := is
    exact .member (of_decide_eq_true htexts) mem (of_decide_eq_true hroom)
  | .anyList, faithful, _ | .anyDict, faithful, _ => by
    unfold isFaithful at faithful
    cases faithful
  | .list item, faithful, is => by
    unfold isFaithful at faithful
    obtain ⟨hroom, hitem⟩ := Bool.and_eq_true_iff.1 faithful
    obtain ⟨items, rfl, members⟩ := is
    exact .list (of_decide_eq_true hroom) fun w mem => readsBack item hitem (members w mem)
  | .set item, faithful, is => by
    unfold isFaithful at faithful
    obtain ⟨hroom, hitem⟩ := Bool.and_eq_true_iff.1 faithful
    obtain ⟨items, rfl, members⟩ := is
    cases item with
    | integer => exact .set (of_decide_eq_true hroom) members
    | _ => cases hitem
  | .dict item, faithful, is => by
    unfold isFaithful at faithful
    obtain ⟨hroom, hitem⟩ := Bool.and_eq_true_iff.1 faithful
    obtain ⟨entries, rfl, names, members⟩ := is
    exact .dict (of_decide_eq_true hroom) names fun e mem => readsBack item hitem (members e mem)
  | .tuple items, faithful, is => by
    unfold isFaithful at faithful
    obtain ⟨hroom, hitems⟩ := Bool.and_eq_true_iff.1 faithful
    obtain ⟨values, rfl, members⟩ := is
    exact .tuple (of_decide_eq_true hroom) (inOrderReadBack items hitems members)
  | .nullable inner, faithful, is => by
    unfold isFaithful at faithful
    obtain ⟨hroom, hinner⟩ := Bool.and_eq_true_iff.1 faithful
    rcases is with rfl | is
    · exact .none (of_decide_eq_true hroom)
    · exact .nullable (readsBack inner hinner is)
  | .union members, faithful, is => by
    unfold isFaithful at faithful
    obtain ⟨hroom, native⟩ := Bool.and_eq_true_iff.1 faithful
    obtain ⟨s, mem, is⟩ := IsOne.exists is
    exact .union native mem is (of_decide_eq_true hroom)
  | .record kind type fields, faithful, is => by
    unfold isFaithful at faithful
    simp only [Bool.and_eq_true, beq_iff_eq, decide_eq_true_eq] at faithful
    obtain ⟨⟨⟨hroom, rfl⟩, names⟩, hfields⟩ := faithful
    obtain ⟨given, rfl, members⟩ := is
    exact .record hroom names (fieldsReadBack fields hfields members)

theorem inOrderReadBack {level : Nat} {values : List Value} :
    (shapes : List Shape) → areFaithful level shapes = true → AreInOrder shapes values →
      InOrderReadBack level shapes values
  | [], _, are => by
    obtain rfl : values = [] := are
    exact ⟨[], rfl, rfl, rfl⟩
  | s :: shapes, faithful, are => by
    unfold areFaithful at faithful
    obtain ⟨hs, hshapes⟩ := Bool.and_eq_true_iff.1 faithful
    obtain ⟨v, rest, rfl, is, are⟩ := are
    exact .cons (readsBack s hs is) (inOrderReadBack shapes hshapes are)

theorem fieldsReadBack {given : List (String × Value)} :
    (fields : List (String × Shape)) → fieldsFaithful fields = true → AreFields fields given →
      FieldsReadBack fields given
  | [], _, are => by
    obtain rfl : given = [] := are
    exact ⟨[], rfl, rfl, rfl, fun _ _ => rfl⟩
  | (name, s) :: fields, faithful, are => by
    unfold fieldsFaithful at faithful
    obtain ⟨hs, hfields⟩ := Bool.and_eq_true_iff.1 faithful
    obtain ⟨v, rest, rfl, is, are⟩ := are
    exact .cons (readsBack s hs is) (fieldsReadBack fields hfields are)

end

end Shape

/-! ## Payloads -/

namespace Payload

/-- A value of a faithful shape does not stand for null, if it is not none. -/
theorem isNull_of_faithful {s : Shape} (faithful : s.isFaithful 1 = true) {v : Value} (is : s.Is v)
    (proper : v ≠ .none) : isNull v = false := by
  obtain ⟨j, hj, -, -⟩ := Shape.readsBack s faithful is
  cases v with
  | none => exact absurd rfl proper
  | nullMarker =>
    unfold Value.toJsonAt at hj
    cases Value.within_ok hj
  | _ => rfl

/-- A value of a faithful shape is accepted, and read back in that shape as it was. -/
theorem decode_encode_typed {t : Target} (faithful : t.shape.isFaithful 1 = true) {v : Value}
    (is : t.shape.Is v) (proper : v ≠ .none) :
    ∃ p, (∀ key, encode v key = .ok p) ∧ ∀ key, decode (Value.ofJson p) (some t) key = .ok v := by
  obtain ⟨j, hj, -, hread⟩ := Shape.readsBack t.shape faithful is
  refine ⟨_, encode_of_toJson? (isNull_of_faithful faithful is proper) hj, fun key => ?_⟩
  have hentry : Value.entry? valueField (Value.ofJsonFields [(valueField, j)]) =
      some (Value.ofJson j) := rfl
  unfold decode
  rw [isNullEnvelope_value, if_neg Bool.false_ne_true]
  simp only [Value.ofJson, hentry, hread]

end Payload

namespace Catalog

/-- The targets whose values are read back as they were, by the way they are written. -/
def exact : List String :=
  ["int", "str", "bool", "date", "Color", "list[int]", "list[str]", "dict[str,int]",
    "tuple[int,str]", "set[int]", "Optional[int]", "int|None", "Union[int,str]", "User", "Profile",
    "list[User]"]

theorem isFaithful_exact {name : String} (mem : name ∈ exact) :
    ∃ t, target? name = some t ∧ t.shape.isFaithful 1 = true := by
  have hall : exact.all (fun name => (target? name).any (·.shape.isFaithful 1)) = true := by decide
  exact (Option.any_eq_true ..).1 (List.all_eq_true.1 hall name mem)

end Catalog

end ExpiringStore
