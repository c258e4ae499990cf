import ExpiringStore.Log.Entry
import ExpiringStore.Log.Template
import ExpiringStore.Settings.Basic
import ExpiringStore.Text.Utf8
import ExpiringStore.Json.Printer

/-!
# Log lines

An entry that matters enough becomes a line: an object of its fields, or a
line for people with the level, the event padded to a column, and the fields in
the order of their names.  Some fields steer how the entry is written and are
not shown themselves.
-/

namespace ExpiringStore.Log

/-- Why an entry cannot be written. -/
inductive Failure where
  | template (reason : Template.Failure)
  /-- A field has the name of something else that is given. -/
  | nameTaken (method name : String)
  | keyNotText (type : String)
  | circular
  | notText (type : String)
  /-- A word that asks for no level. -/
  | noLevel (word : String)
  /-- A field of an operation has the name of what every operation is given. -/
  | operationNameTaken (name : String)
  deriving DecidableEq, Repr

def Failure.text : Failure → String
  | .template reason => reason.text
  | .nameTaken method name => s!"BoundLogger.{method}() got multiple values for argument '{name}'"
  | .keyNotText type => "keys must be str, int, float, bool or None, not " ++ type
  | .circular => "Circular reference detected"
  | .noLevel word => s!"'BoundLogger' object has no attribute '{word}'"
  | .operationNameTaken name =>
    s!"log_cache_operation() got multiple values for argument '{name}'"
  | .notText type => "can only concatenate str (not \"" ++ type ++ "\") to str"

/-! ## Fields with a meaning of their own -/

def valuesField : String := "positional_args"

/-- Fields that ask for something to be added to an entry, of which there is nothing here. -/
def askingFields : List String := ["exc_info", "stack_info"]

/-- The values that a field gives for the event; a lone dictionary gives them by name. -/
def valuesOf (v : Value) : Except Template.Failure Template.Values :=
  match v with
  | .list [.dict (e :: entries)] | .tuple [.dict (e :: entries)] =>
    .ok (.single (.dict (e :: entries)))
  | .tuple items => .ok (.several items)
  | .list _ | .endless | .set _ | .dict _ | .bytes _ | .str _ | .member _ => .ok (.single v)
  | v => .error (.noSize v.typePath)

/-- The entry with values filled into its event and without the fields that
have done their part. -/
def prepare (e : Entry) : Except Failure Entry := do
  let fields := e.fields.filter fun f => !askingFields.contains f.1
  match fields.lookup valuesField with
  | none => return { e with fields }
  | some .none => return { e with fields }
  | some v =>
    let fields := fields.filter (·.1 != valuesField)
    if !v.isTruthy then return { e with fields }
    else
      let event ← ((valuesOf v).bind (Template.fill e.event)).mapError .template
      return { e with event, fields }

/-! ## Octets in fields -/

/-- A field value with octets turned into text. -/
def readable : Value → Value
  | .bytes b => .str (Utf8.decodeLossy b)
  | v => v

/-! ## Objects -/

def fieldName (k : Value) : Except Failure String :=
  match k with
  | .none => .ok "null"
  | .bool b => .ok (if b then "true" else "false")
  | .int n => .ok (toString n)
  | .float x => .ok (Json.render (.float x))
  | k =>
    match k.text? with
    | some s => .ok s
    | none => .error (.keyNotText k.typeName)

mutual

/-- A value in an object; what has no structure becomes the text diagnostics show. -/
def objectValue : Value → Except Failure Json
  | .none => .ok .null
  | .bool b => .ok (.bool b)
  | .int n => .ok (.int n)
  | .float x => .ok (.float x)
  | .str s => .ok (.str s)
  | .member m => .ok (.str m.text)
  | .list items => (objectItems items).map .array
  | .tuple items => (objectItems items).map .array
  | .dict entries => (objectEntries entries).map (.object ∘ Json.fieldsOf)
  | .endless => .error .circular
  | v => .ok (.str v.quoted)

def objectItems : List Value → Except Failure (List Json)
  | [] => .ok []
  | v :: rest =>
    match objectValue v with
    | .error e => .error e
    | .ok j => (objectItems rest).map (j :: ·)

def objectEntries : List (Value × Value) → Except Failure (List (String × Json))
  | [] => .ok []
  | (k, v) :: rest =>
    match fieldName k with
    | .error e => .error e
    | .ok name =>
      match objectValue v with
      | .error e => .error e
      | .ok j => (objectEntries rest).map ((name, j) :: ·)

end

def objectFields : List (String × Value) → Except Failure (List (String × Json))
  | [] => .ok []
  | (name, v) :: rest =>
    match objectValue (readable v) with
    | .error e => .error e
    | .ok j => (objectFields rest).map ((name, j) :: ·)

/-- An entry as an object, with the name of the logger and the time. -/
def object (logger : String) (timestamp : Json) (e : Entry) : Except Failure Json :=
  (objectFields e.fields).map fun given =>
    .object (Json.fieldsOf (given ++ [("event", .str e.event), ("logger", .str logger),
      ("level", .str e.level.word), ("timestamp", timestamp)]))

/-! ## Lines for people -/

/-- The characters that make a text stand between quotes. -/
def needsQuotes (c : Char) : Bool :=
  c == ' ' || c == '\t' || c == '=' || c == '\r' || c == '\n' || c == '"' || c == '\''

def lineValue (v : Value) : String :=
  match v.text? with
  | some s => if s.toList.any needsQuotes then v.quoted else s
  | none => v.quoted

def pad (s : String) (width : Nat) : String :=
  s ++ String.ofList (List.replicate (width - s.length) ' ')

def withoutEnd (s : String) : String :=
  String.ofList (s.toList.reverse.dropWhile (· == ' ')).reverse

/-- Fields that have a place of their own in a line. -/
def loggerFields : List String := ["logger", "logger_name"]

/-- Fields that take up lines of their own. -/
def appendedFields : List String := ["stack", "exception"]

/-- Fields that are not among the fields of a line. -/
def placedFields : List String := ["level", "timestamp"] ++ loggerFields ++ appendedFields

/-- The lines that follow the first. -/
def appended (e : Entry) : Except Failure (List String) := do
  let parts := (appendedFields.filterMap (fun n => e.fields.lookup n)).filter fun
    | .none => false
    | _ => true
  let texts ← parts.mapM fun v =>
    match (readable v).text? with
    | some s => .ok s
    | none => .error (.notText v.typePath)
  match texts with
  | [stack, reason] => return [stack, "", String.ofList (List.replicate 79 '='), "", reason]
  | texts => return texts

/-- Level, event, logger and fields on one line, without blanks at the end, and
what follows on lines of its own. -/
def lines (e : Entry) : Except Failure (List String) := do
  let loggers := (loggerFields.filterMap (fun n => e.fields.lookup n)).map fun v =>
    "[" ++ (readable v).plain ++ "]"
  let fields := (e.fields.filter fun f => !placedFields.contains f.1).mergeSort
    fun a b => !(b.1 < a.1)
  let parts := fields.map fun (name, v) => name ++ "=" ++ lineValue (readable v)
  let head := "[" ++ pad e.level.word 9 ++ "] " ++ pad e.event 35
  let first := withoutEnd (String.intercalate " " (head :: loggers ++ parts))
  let more ← appended e
  return (first :: more).flatMap fun s => (s.splitOn "\n").map withoutEnd

/-! ## A configured log -/

/-- Does an entry matter enough for a configured level? -/
def passes (configured : String) (e : Entry) : Bool :=
  match Level.ofWord? configured with
  | some l => l.rank ≤ e.level.rank
  | none => true

/-- A line of the log: an object or a text. -/
inductive Line where
  | object (j : Json)
  | text (s : String)

/-- The names of what is given with every operation besides the fields. -/
def operationNames : List String := ["logger", "operation", "key"]

def operationEntry (name : String) (key : Value) (extra : List (String × Value))
    (hit : Option Value) : Except Failure Entry :=
  match extra.find? fun f => operationNames.contains f.1 with
  | some (taken, _) => .error (.operationNameTaken taken)
  | none => .ok (operation name key extra hit)

/-- The names of what is given to a logger besides the fields. -/
def givenNames : List String := ["self", "event", "method_name"]

/-- The lines of an entry, if it matters enough. -/
def Line.ofEntry (s : Settings) (logger : String) (timestamp : Json) (e : Entry) :
    Except Failure (List Line) :=
  match e.fields.find? fun f => givenNames.contains f.1 with
  | some (name, _) =>
    .error (.nameTaken (if name == "method_name" then "_proxy_to_logger" else e.level.word) name)
  | none =>
    if !passes s.logLevel e then .ok []
    else do
      let e ← prepare e
      if s.logFormat == "json" then return [.object (← Log.object logger timestamp e)]
      else return (← lines e).map .text

/-- The level of a logger that would say too much otherwise. -/
def quietLevel : String := "WARNING"

/-- The levels of the loggers of the database: its driver, its engine and its pool. -/
def databaseLevels : List String := [quietLevel, quietLevel, quietLevel]

/-- How many places lines are written to. -/
def sinks (s : Settings) : Nat := if (s.logFile.getD "").isEmpty then 1 else 2

end ExpiringStore.Log
