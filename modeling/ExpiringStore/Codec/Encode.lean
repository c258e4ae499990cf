import ExpiringStore.Failure
import ExpiringStore.Text.Utf8

/-!
# Encoding values

`Value.toJson?` gives a value its stored form.  Scalars of structured data stay
as they are, other scalars become texts, collections become arrays, and
dictionaries and records become objects.  Names of object fields are texts made
from the keys; keys with one text are one field, the later value staying.

Nesting is limited: the value itself counts as one level, and every value
inside a collection as one more than the collection.  The text of a member
counts as inside the member.  The fields of a declared record take up no levels,
because the forms of their types are known.
-/

namespace ExpiringStore

/-- The greatest number of levels in a value that has a stored form. -/
def maxNesting : Nat := 255

def textOfOctets (octets : List Nat) : Except Unencodable String :=
  match Utf8.decode octets with
  | .ok s => .ok s
  | .error (position, octet) => .error (.notText octet position)

namespace Value

/-- The name under which diagnostics know the type of a value without a stored form. -/
def opaqueName : Value → String
  | .nullMarker => "tablecache.services.codec._CachedNull"
  | v => v.typeName

mutual

def fieldName? : Value → Except Unencodable String
  | .none => .ok "None"
  | .bool b => .ok (if b then "true" else "false")
  | .int n => .ok (toString n)
  | .float x => .ok (floatText x)
  | .str s => .ok s
  | .bytes b => textOfOctets b
  | .tuple items =>
    match fieldNames? items with
    | .ok names => .ok (String.intercalate "," names)
    | .error e => .error e
  | .moment m => .ok m.interchange
  | .date d => .ok d.text
  | .time t => .ok t.interchange
  | .duration d => .ok d.interchange
  | .decimal d => .ok d.text
  | .uuid s => .ok s
  | .member m => .ok m.text
  | v => .error (.unknownType v.opaqueName)

def fieldNames? : List Value → Except Unencodable (List String)
  | [] => .ok []
  | v :: rest =>
    match fieldName? v with
    | .error e => .error e
    | .ok name =>
      match fieldNames? rest with
      | .error e => .error e
      | .ok names => .ok (name :: names)

end

/-- A stored form, unless the level is beyond the limit. -/
def within (level : Nat) (form : Unit → Except Unencodable Json) : Except Unencodable Json :=
  if maxNesting < level then .error .tooDeep else form ()

mutual

/-- The stored form of a value that stands at some level. -/
def toJsonAt (level : Nat) : Value → Except Unencodable Json
  | .none => within level fun _ => .ok .null
  | .bool b => within level fun _ => .ok (.bool b)
  | .int n => within level fun _ => .ok (.int n)
  | .float x => within level fun _ => .ok (.float x)
  | .str s => within level fun _ => .ok (.str s)
  | .bytes b => within level fun _ => (textOfOctets b).map .str
  | .list items => within level fun _ => (toJsonItems (level + 1) items).map .array
  | .tuple items => within level fun _ => (toJsonItems (level + 1) items).map .array
  | .set items => within level fun _ => (toJsonItems (level + 1) items).map .array
  | .dict entries =>
    within level fun _ => (toJsonEntries (level + 1) entries).map (.object ∘ Json.fieldsOf)
  | .moment m => within level fun _ => .ok (.str m.interchange)
  | .date d => within level fun _ => .ok (.str d.text)
  | .time t => within level fun _ => .ok (.str t.interchange)
  | .duration d => within level fun _ => .ok (.str d.interchange)
  | .decimal d => within level fun _ => .ok (.str d.text)
  | .uuid s => within level fun _ => .ok (.str s)
  | .member m => within (level + 1) fun _ => .ok (.str m.text)
  | .record kind _ fields =>
    let inner := match kind with
      | .bare => level + 1
      | .declared => 0
    within level fun _ => (toJsonFields inner fields).map (.object ∘ Json.fieldsOf)
  | .endless => within level fun _ => .error .circular
  | .nullMarker => within level fun _ => .error (.unknownType (opaqueName .nullMarker))
  | .object => within level fun _ => .error (.unknownType (opaqueName .object))

def toJsonItems (level : Nat) : List Value → Except Unencodable (List Json)
  | [] => .ok []
  | v :: rest =>
    match toJsonAt level v with
    | .error e => .error e
    | .ok j =>
      match toJsonItems level rest with
      | .error e => .error e
      | .ok js => .ok (j :: js)

def toJsonEntries (level : Nat) :
    List (Value × Value) → Except Unencodable (List (String × Json))
  | [] => .ok []
  | (k, v) :: rest =>
    match fieldName? k with
    | .error e => .error e
    | .ok name =>
      match toJsonAt level v with
      | .error e => .error e
      | .ok j =>
        match toJsonEntries level rest with
        | .error e => .error e
        | .ok fields => .ok ((name, j) :: fields)

def toJsonFields (level : Nat) :
    List (String × Value) → Except Unencodable (List (String × Json))
  | [] => .ok []
  | (name, v) :: rest =>
    match toJsonAt level v with
    | .error e => .error e
    | .ok j =>
      match toJsonFields level rest with
      | .error e => .error e
      | .ok fields => .ok ((name, j) :: fields)

end

/-- The stored form of a value. -/
def toJson? (v : Value) : Except Unencodable Json := v.toJsonAt 1

end Value

end ExpiringStore
