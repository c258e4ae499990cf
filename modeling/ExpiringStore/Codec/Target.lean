import ExpiringStore.Codec.Scalar

/-!
# Typed reads

A target names a type and gives its shape.  `Shape.read` turns a value into one
of that shape, leniently for scalars, or counts the places at which it does not
fit.  A union takes the member that the value is of already, and only then the
first that it can be turned into.
-/

namespace ExpiringStore

/-- The shape of a type. -/
inductive Shape where
  | integer
  | double
  | text
  | truth
  | date
  | anyList
  | anyDict
  | list (item : Shape)
  | set (item : Shape)
  | dict (item : Shape)
  | tuple (items : List Shape)
  | nullable (inner : Shape)
  | union (members : List Shape)
  | words (allowed : List String)
  | member (type : String) (members : List Member)
  | record (kind : RecordKind) (type : String) (fields : List (String × Shape))
  deriving Inhabited

/-- A type that a read asks for. -/
structure Target where
  name : String
  shape : Shape
  deriving Inhabited

namespace Value

/-- The order in which the items of a set are listed: numbers by size, texts by
code points, and otherwise as they come. -/
def listedBefore (a b : Value) : Bool :=
  match a.magnitude?, b.magnitude? with
  | some x, some y => x.le y
  | _, _ =>
    match a.text?, b.text? with
    | some s, some t => !(t < s)
    | _, _ => true

def setOf (items : List Value) : Value := .set ((distinct items).mergeSort listedBefore)

end Value

namespace Shape

/-- A scalar, or one misfit. -/
def scalar {α : Type} (make : α → Value) : Except Mismatch α → Except Nat Value
  | .ok a => .ok (make a)
  | .error _ => .error 1

/-- Results of all places: all values, or the number of misfits. -/
def gather : List (Except Nat Value) → Except Nat (List Value)
  | [] => .ok []
  | .ok v :: rest => (gather rest).map (v :: ·)
  | .error n :: rest =>
    match gather rest with
    | .ok _ => .error n
    | .error m => .error (n + m)

/-- Is a value of a scalar shape already? -/
def holds : Shape → Value → Bool
  | .integer, .int _ => true
  | .double, .float _ => true
  | .text, .str _ => true
  | .truth, .bool _ => true
  | .date, .date _ => true
  | .nullable _, .none => true
  | .anyList, .list _ => true
  | .anyDict, .dict _ => true
  | _, _ => false

def keyText (k : Value) : Except Nat Value := scalar .str (Scalar.string? k)

/-- The keys of a dictionary that cannot name a field; a declared record
ignores them. -/
def strayKeys (kind : RecordKind) (entries : List (Value × Value)) : List (Except Nat Value) :=
  match kind with
  | .declared => []
  | .bare => (entries.filter fun e => e.1.text?.isNone).map fun _ => .error 1

mutual

/-- The value in this shape, or the number of misfits. -/
def read : Shape → Value → Except Nat Value
  | .integer, v => scalar .int (Scalar.integer? v)
  | .double, v => scalar .float (Scalar.double? v)
  | .text, v => scalar .str (Scalar.string? v)
  | .truth, v => scalar .bool (Scalar.truth? v)
  | .date, v =>
    match Scalar.date? v with
    | some d => .ok (.date d)
    | none => .error 1
  | .anyList, v =>
    match v.items? with
    | some items => .ok (.list items)
    | none => .error 1
  | .anyDict, v =>
    match v with
    | .dict entries => .ok (.dict entries)
    | _ => .error 1
  | .list item, v =>
    match v.items? with
    | some items => (gather (items.map (read item))).map .list
    | none => .error 1
  | .set item, v =>
    match v.items? with
    | some items => (gather (items.map (read item))).map .setOf
    | none => .error 1
  | .dict item, v =>
    match v with
    | .dict entries =>
      match gather (entries.flatMap fun (k, w) => [keyText k, read item w]) with
      | .ok _ => .ok (.dict (entries.map fun (k, w) =>
          ((keyText k).toOption.getD k, (read item w).toOption.getD w)))
      | .error n => .error n
    | _ => .error 1
  | .tuple shapes, v =>
    match v.items? with
    | some items =>
      if shapes.length < items.length then .error 1
      else (gather (readInOrder shapes items)).map .tuple
    | none => .error 1
  | .nullable inner, v =>
    match v with
    | .none => .ok .none
    | v => read inner v
  | .union members, v =>
    if members.any (fun m => m.holds v) then .ok v else readFirst members v
  | .words allowed, v =>
    match v with
    | .str s => if allowed.contains s then .ok (.str s) else .error 1
    | _ => .error 1
  | .member _ members, v =>
    match Scalar.string? v with
    | .ok s =>
      match members.find? (·.text == s) with
      | some found => .ok (.member found)
      | none => .error 1
    | .error _ => .error 1
  | .record kind type fields, v =>
    match v with
    | .dict entries =>
      (gather (readFields fields entries ++ strayKeys kind entries)).map fun vs =>
        .record kind type ((fields.map (·.1)).zip vs)
    | .record k t given => if t == type then .ok (.record k t given) else .error 1
    | _ => .error 1

/-- Values by position; a position without a value is a misfit. -/
def readInOrder : List Shape → List Value → List (Except Nat Value)
  | [], _ => []
  | s :: shapes, v :: values => read s v :: readInOrder shapes values
  | _ :: shapes, [] => .error 1 :: readInOrder shapes []

/-- The first member that the value can be turned into; misfits of all members add up. -/
def readFirst : List Shape → Value → Except Nat Value
  | [], _ => .error 0
  | s :: shapes, v =>
    match read s v with
    | .ok w => .ok w
    | .error n =>
      match readFirst shapes v with
      | .ok w => .ok w
      | .error m => .error (n + m)

/-- Values by name; a field without a value is a misfit. -/
def readFields : List (String × Shape) → List (Value × Value) → List (Except Nat Value)
  | [], _ => []
  | (name, s) :: fields, entries =>
    (match Value.entry? name entries with
      | some v => read s v
      | none => .error 1) :: readFields fields entries

end

end Shape

end ExpiringStore
