import ExpiringStore.Text.Percent
import ExpiringStore.Text.Words
import ExpiringStore.Value.Numeral

/-!
# Database URLs

    name "://" [user [":" password] "@"] [host] [":" port] ["/" path] ["?" query]

The name is a dialect, with a driver after a plus sign if one is chosen.  Only
the name and the two slashes are required; what follows the parts above is not
looked at.  User, password, path and query are written with percent signs.
-/

namespace ExpiringStore

/-- The parts of a database URL, as they are meant. -/
structure DatabaseUrl where
  name : String
  user : Option String := none
  password : Option String := none
  host : Option String := none
  port : Option Int := none
  path : Option String := none
  /-- The options by name, each with its values in order. -/
  query : List (String × List String) := []
  deriving DecidableEq, Repr, Inhabited

namespace DatabaseUrl

inductive Issue where
  | unreadable
  | port (reason : Numeral.Issue)
  | portMissing
  deriving DecidableEq, Repr

/-- The characters of names: those of words, and the plus sign. -/
def isNameChar (c : Char) : Bool := isWordCharacter c || c == '+'

/-- Everything before the last place of a character, and what follows it. -/
def splitLast (c : Char) (cs : List Char) : Option (List Char × List Char) :=
  let after := (cs.reverse.takeWhile (· != c)).reverse
  if after.length == cs.length then none
  else some (cs.take (cs.length - after.length - 1), after)

/-- User and password in front of the host, if they are there. -/
def readCredentials (cs : List Char) : (Option String × Option String) × List Char :=
  let front := cs.takeWhile fun c => c != ':' && c != '/'
  let ofFront :=
    match splitLast '@' front with
    | some (user, rest) => ((some (String.ofList user), none), rest ++ cs.drop front.length)
    | none => ((none, none), cs)
  match cs.drop front.length with
  | ':' :: rest =>
    let password := rest.takeWhile (· != '@')
    match rest.drop password.length with
    | '@' :: rest => ((some (String.ofList front), some (String.ofList password)), rest)
    | _ => ofFront
  | _ => ofFront

/-- The host, in square brackets or plain. -/
def readHost (cs : List Char) : Option String × List Char :=
  let plain :=
    let h := cs.takeWhile fun c => c != '/' && c != ':' && c != '?'
    (if h.isEmpty then none else some (String.ofList h), cs.drop h.length)
  match cs with
  | '[' :: rest =>
    let reach := rest.takeWhile fun c => c != '/' && c != '?'
    match splitLast ']' reach with
    | some (h, tail) =>
      if h.isEmpty then plain else (some (String.ofList h), tail ++ rest.drop reach.length)
    | none => plain
  | _ => plain

/-- A part that a character introduces and that ends before one of some others. -/
def readPart (mark : Char) (stops : List Char) (cs : List Char) : Option String × List Char :=
  match cs with
  | c :: rest =>
    if c == mark then
      let p := rest.takeWhile (!stops.contains ·)
      (some (String.ofList p), rest.drop p.length)
    else (none, cs)
  | [] => (none, [])

def addOption (name value : String) : List (String × List String) → List (String × List String)
  | [] => [(name, [value])]
  | (n, values) :: rest =>
    if n == name then (n, values ++ [value]) :: rest else (n, values) :: addOption name value rest

/-- The options that a query gives; one without a value does not count. -/
def readQuery (query : String) : List (String × List String) :=
  (query.splitOn "&").foldl (fun options field =>
    let cs := field.toList
    let name := cs.takeWhile (· != '=')
    let value := cs.drop (name.length + 1)
    if value.isEmpty then options
    else
      let read (cs : List Char) : String := Percent.decodeField (String.ofList cs)
      addOption (read name) (read value) options) []

/-- The number of a port, which must be there if its colon is. -/
def readPort (port : String) : Except Issue Int :=
  if port.isEmpty then .error .portMissing else (Numeral.whole port).mapError .port

def parse (s : String) : Except Issue DatabaseUrl :=
  let cs := s.toList
  let name := cs.takeWhile isNameChar
  match name, cs.drop name.length with
  | _ :: _, ':' :: '/' :: '/' :: rest => do
    let ((user, password), rest) := readCredentials rest
    let (host, rest) := readHost rest
    let (port, rest) := readPart ':' ['/', '?'] rest
    let (path, rest) := readPart '/' ['?'] rest
    let (query, _) := readPart '?' ['\n'] rest
    let port ← match port with
      | none => pure none
      | some p => (readPort p).map some
    return {
      name := String.ofList name
      user := user.map Percent.decode
      password := password.map Percent.decode
      host
      port
      path := path.map Percent.decode
      query := (query.map readQuery).getD [] }
  | _, _ => .error .unreadable

/-- The dialect and, if one is chosen, the driver. -/
def nameParts (u : DatabaseUrl) : List String := u.name.splitOn "+"

def dialect (u : DatabaseUrl) : String := u.nameParts.headD ""

def values (u : DatabaseUrl) (name : String) : List String := (u.query.lookup name).getD []

/-- The options in writing, by name. -/
def shownQuery (u : DatabaseUrl) : String :=
  let sorted := u.query.mergeSort fun a b => !(b.1 < a.1)
  String.intercalate "&" (sorted.flatMap fun (name, values) =>
    values.map fun v => Percent.encodeField name ++ "=" ++ Percent.encodeField v)

/-- The URL in writing, with its password hidden. -/
def shown (u : DatabaseUrl) : String :=
  let written := Percent.encode [' ', '+']
  u.name ++ "://" ++
    (u.user.elim "" fun user =>
      written user ++ (if u.password.isSome then ":***" else "") ++ "@") ++
    (u.host.elim "" fun h => if h.toList.contains ':' then "[" ++ h ++ "]" else h) ++
    (u.port.elim "" fun p => ":" ++ toString p) ++
    (u.path.elim "" fun p => "/" ++ Percent.encode [' ', '+', '/'] p) ++
    (if u.query.isEmpty then "" else "?" ++ u.shownQuery)

end DatabaseUrl

end ExpiringStore
