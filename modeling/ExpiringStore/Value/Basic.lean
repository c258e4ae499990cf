import ExpiringStore.Json.Basic
import ExpiringStore.Time.Calendar
import ExpiringStore.Value.Decimal

/-!
# Application values

What an application puts into the store and passes as an argument: scalars,
collections, calendar values, members of enumerations and records.  Members of
the enumerations here are texts as well: a member stands for its text wherever
a text is asked for.
-/

namespace ExpiringStore

/-- A member of an enumeration of texts. -/
structure Member where
  type : String
  name : String
  text : String
  deriving DecidableEq, Repr, Inhabited

/-- The kinds of records: bare ones hold any values, and the fields of declared
ones were checked when the record was made. -/
inductive RecordKind where
  | bare
  | declared
  deriving DecidableEq, Repr, Inhabited

/-- An application value. -/
inductive Value where
  | none
  | bool (b : Bool)
  | int (n : Int)
  | float (x : Float)
  | str (s : String)
  | bytes (octets : List Nat)
  | list (items : List Value)
  | tuple (items : List Value)
  | set (items : List Value)
  | dict (entries : List (Value × Value))
  | moment (m : Moment)
  | date (d : Date)
  | time (t : ClockTime)
  | duration (d : Duration)
  | decimal (d : Decimal)
  | uuid (s : String)
  | member (m : Member)
  | record (kind : RecordKind) (type : String) (fields : List (String × Value))
  /-- The marker that stands for a stored null. -/
  | nullMarker
  /-- A value without structure. -/
  | object
  /-- A list whose only item is the list itself. -/
  | endless
  deriving Inhabited

namespace Value

def typeName : Value → String
  | .none => "NoneType"
  | .bool _ => "bool"
  | .int _ => "int"
  | .float _ => "float"
  | .str _ => "str"
  | .bytes _ => "bytes"
  | .list _ => "list"
  | .tuple _ => "tuple"
  | .set _ => "set"
  | .dict _ => "dict"
  | .moment _ => "datetime"
  | .date _ => "date"
  | .time _ => "time"
  | .duration _ => "timedelta"
  | .decimal _ => "Decimal"
  | .uuid _ => "UUID"
  | .member m => m.type
  | .record _ type _ => type
  | .nullMarker => "_CachedNull"
  | .object => "object"
  | .endless => "list"

/-- The name of a value's type, with the module for the types that have one of their own. -/
def typePath (v : Value) : String :=
  match v with
  | .moment _ | .date _ | .time _ | .duration _ => "datetime." ++ v.typeName
  | .decimal _ => "decimal." ++ v.typeName
  | v => v.typeName

/-- The text that a value is, for texts and members. -/
def text? : Value → Option String
  | .str s => some s
  | .member m => some m.text
  | _ => Option.none

/-- The number that a value is, truth values aside. -/
def number? : Value → Option Number
  | .int n => some (.int n)
  | .float x => some (.float x)
  | _ => Option.none

def ofNumber : Number → Value
  | .int n => .int n
  | .float x => .float x

mutual

/-- Structured data as a value: objects become dictionaries keyed by text. -/
def ofJson : Json → Value
  | .null => .none
  | .bool b => .bool b
  | .int n => .int n
  | .float x => .float x
  | .str s => .str s
  | .array items => .list (ofJsonItems items)
  | .object fields => .dict (ofJsonFields fields)

def ofJsonItems : List Json → List Value
  | [] => []
  | v :: rest => ofJson v :: ofJsonItems rest

def ofJsonFields : List (String × Json) → List (Value × Value)
  | [] => []
  | (name, v) :: rest => (.str name, ofJson v) :: ofJsonFields rest

end

/-- The number that a value counts as in a comparison, truth values included. -/
def magnitude? : Value → Option Number
  | .bool b => some (.int (if b then 1 else 0))
  | .int n => some (.int n)
  | .float x => some (.float x)
  | _ => Option.none

mutual

/-- Equal in value: numbers by their exact value whatever their type, texts and
members by their text, collections of one kind by their contents. -/
def same : Value → Value → Bool
  | .none, .none => true
  | .nullMarker, .nullMarker => true
  | .bytes a, .bytes b => a == b
  | .list a, .list b => sameItems a b
  | .tuple a, .tuple b => sameItems a b
  | .set a, .set b => a.length == b.length && sameSome a b
  | .dict a, .dict b => a.length == b.length && sameEntries a b
  | .moment a, .moment b => a.same b
  | .date a, .date b => a == b
  | .time a, .time b => a.same b
  | .duration a, .duration b => a == b
  | .decimal a, .decimal b => a.same b
  | .uuid a, .uuid b => a == b
  | .record _ t a, .record _ u b => t == u && sameFields a b
  | .decimal a, b => (b.magnitude?.map fun y => a.same (.ofNumber y)).getD false
  | a, .decimal b => (a.magnitude?.map fun x => b.same (.ofNumber x)).getD false
  | a, b =>
    match a.magnitude?, b.magnitude? with
    | some x, some y => x.same y
    | _, _ =>
      match a.text?, b.text? with
      | some s, some t => s == t
      | _, _ => false

def sameItems : List Value → List Value → Bool
  | [], [] => true
  | a :: as, b :: bs => same a b && sameItems as bs
  | _, _ => false

def sameSome : List Value → List Value → Bool
  | [], _ => true
  | a :: as, bs => bs.any (fun b => same a b) && sameSome as bs

def sameEntries : List (Value × Value) → List (Value × Value) → Bool
  | [], _ => true
  | (k, v) :: rest, bs =>
    bs.any (fun (k', v') => same k k' && same v v') && sameEntries rest bs

def sameFields : List (String × Value) → List (String × Value) → Bool
  | [], [] => true
  | (n, v) :: as, (m, w) :: bs => n == m && same v w && sameFields as bs
  | _, _ => false

end

/-- Sets a dictionary entry: an equal key keeps its place and takes the new value. -/
def putEntry (key value : Value) : List (Value × Value) → List (Value × Value)
  | [] => [(key, value)]
  | (k, v) :: rest =>
    if same k key then (k, value) :: rest else (k, v) :: putEntry key value rest

/-- A dictionary of some pairs, a later value of a key replacing the earlier. -/
def dictOf (pairs : List (Value × Value)) : Value :=
  .dict (pairs.foldl (fun entries p => putEntry p.1 p.2 entries) [])

/-- The value of a dictionary entry whose key is a text. -/
def entry? (name : String) : List (Value × Value) → Option Value
  | [] => Option.none
  | (k, v) :: rest => if k.text? == some name then some v else entry? name rest

/-- Values without repetition, the first of equal ones staying. -/
def distinct (items : List Value) : List Value :=
  items.foldl (fun seen v => if seen.any (same · v) then seen else seen ++ [v]) []

/-- The items of a collection other than a dictionary.  A declared record is a
collection of its fields, each a pair of name and value. -/
def items? : Value → Option (List Value)
  | .list items => some items
  | .tuple items => some items
  | .set items => some items
  | .endless => some [.endless]
  | .record .declared _ fields => some (fields.map fun (name, v) => .tuple [.str name, v])
  | _ => Option.none

/-- Does a value count as present in a condition?  Empty collections, empty
texts, zeros and the null marker do not. -/
def isTruthy : Value → Bool
  | .none => false
  | .bool b => b
  | .int n => n != 0
  | .float x => x != 0
  | .str s => !s.isEmpty
  | .bytes b => !b.isEmpty
  | .list items => !items.isEmpty
  | .tuple items => !items.isEmpty
  | .set items => !items.isEmpty
  | .dict entries => !entries.isEmpty
  | .duration d => d.micros != 0
  | .decimal (.finite _ c _) => c != 0
  | .member m => !m.text.isEmpty
  | .nullMarker => false
  | _ => true

end Value

end ExpiringStore
