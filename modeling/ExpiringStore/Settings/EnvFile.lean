import ExpiringStore.Text.Characters

/-!
# Environment files

A file of `NAME=value` lines.  A name may follow the word `export`.  A value
between quotes may run over lines and has escapes; without quotes it ends with
the line or in front of a number sign that follows a blank.  A line that does
not fit is left out.  A dollar sign before a name in braces stands for an
earlier or outer variable.
-/

namespace ExpiringStore.EnvFile

/-! ## Characters -/

/-- A blank that does not end a line. -/
def isGap (c : Char) : Bool := isSpacing c && c != '\n'

def plainLines : List Char → List Char
  | [] => []
  | '\r' :: '\n' :: rest => '\n' :: plainLines rest
  | '\r' :: rest => '\n' :: plainLines rest
  | c :: rest => c :: plainLines rest

def afterLine (cs : List Char) : List Char := (cs.dropWhile (· != '\n')).drop 1

/-! ## Values -/

/-- The characters up to the closing quote, and the rest.  A backslash and the
character behind it belong together, so a quote behind one does not close. -/
def quoted? (quote : Char) : List Char → Option (List Char × List Char)
  | [] => none
  | '\\' :: c :: rest =>
    (quoted? quote rest).map fun (inner, after) => ('\\' :: c :: inner, after)
  | c :: rest =>
    if c == quote then some ([], rest)
    else (quoted? quote rest).map fun (inner, after) => (c :: inner, after)

def singleEscape? : Char → Option Char
  | '\\' => some '\\'
  | '\'' => some '\''
  | _ => none

def doubleEscape? : Char → Option Char
  | '\\' => some '\\'
  | '\'' => some '\''
  | '"' => some '"'
  | 'a' => some '\x07'
  | 'b' => some '\x08'
  | 'f' => some '\x0c'
  | 'n' => some '\n'
  | 'r' => some '\r'
  | 't' => some '\t'
  | 'v' => some '\x0b'
  | _ => none

/-- The characters with their escapes resolved. -/
def unescape (escape? : Char → Option Char) : List Char → List Char
  | [] => []
  | '\\' :: c :: rest =>
    match escape? c with
    | some e => e :: unescape escape? rest
    | none => '\\' :: unescape escape? (c :: rest)
  | c :: rest => c :: unescape escape? rest

/-- The line up to a number sign that follows a blank. -/
def beforeComment (afterSpace : Bool) : List Char → List Char
  | [] => []
  | c :: rest => if c == '#' && afterSpace then [] else c :: beforeComment (isSpacing c) rest

/-- An unquoted value: the line without a comment and without blanks at its end. -/
def bare (afterSpace : Bool) (line : List Char) : List Char :=
  ((beforeComment afterSpace line).reverse.dropWhile isSpacing).reverse

/-- The value at the cursor, perhaps behind a blank, and the rest after it; none
if a quote is not closed. -/
def value? (afterSpace : Bool) : List Char → Option (List Char × List Char)
  | '\'' :: rest => (quoted? '\'' rest).map fun (v, after) => (unescape singleEscape? v, after)
  | '"' :: rest => (quoted? '"' rest).map fun (v, after) => (unescape doubleEscape? v, after)
  | cs => some (bare afterSpace (cs.takeWhile (· != '\n')), cs.dropWhile (· != '\n'))

/-! ## Bindings -/

/-- A name and the value it is bound to, if any. -/
structure Binding where
  name : String
  value : Option (List Char)

/-- What follows the word in front of a name. -/
def afterExport (cs : List Char) : List Char :=
  let more := cs.drop 6
  if "export".toList.isPrefixOf cs && (more.head?.map isGap).getD false then more.dropWhile isGap
  else cs

/-- The name at the cursor, perhaps between quotes, and the rest. -/
def name? : List Char → Option (String × List Char)
  | '\'' :: rest =>
    let inner := rest.takeWhile (· != '\'')
    let after := rest.dropWhile (· != '\'')
    if inner.isEmpty || after.isEmpty then none else some (String.ofList inner, after.drop 1)
  | cs =>
    let fits (c : Char) : Bool := !(c == '=' || c == '#' || isSpacing c)
    let name := cs.takeWhile fits
    if name.isEmpty then none else some (String.ofList name, cs.dropWhile fits)

/-- The rest after the end of the line, in front of which only a comment may stand. -/
def lineEnd? (cs : List Char) : Option (List Char) :=
  match cs.dropWhile isGap with
  | [] => some []
  | '\n' :: rest => some rest
  | '#' :: rest => some (afterLine rest)
  | _ => none

/-- One binding at the cursor, if there is one, and the rest of the file. -/
def binding (cs : List Char) : Option Binding × List Char :=
  let start := afterExport (cs.dropWhile isSpacing)
  if start.head? == some '#' then (none, afterLine start)
  else
    match name? start with
    | none => (none, afterLine start)
    | some (name, rest) =>
      match rest.dropWhile isGap with
      | '=' :: more =>
        let afterSpace := (more.head?.map isGap).getD false
        let more := more.dropWhile isGap
        match value? afterSpace more with
        | none => (none, afterLine more)
        | some (v, rest) =>
          match lineEnd? rest with
          | some rest => (some ⟨name, some v⟩, rest)
          | none => (none, afterLine rest)
      | rest =>
        match lineEnd? rest with
        | some rest => (some ⟨name, none⟩, rest)
        | none => (none, afterLine rest)

/-- All bindings of a file, in order; each takes up some of the fuel. -/
def bindings : Nat → List Char → List Binding
  | 0, _ => []
  | fuel + 1, cs =>
    if cs.isEmpty then []
    else
      let (found, rest) := binding cs
      found.toList ++ bindings fuel rest

/-! ## Variables -/

/-- A value with its variables replaced; a name without a value takes the
default after `:-`, or nothing. -/
def expand (lookup : String → Option String) : Nat → List Char → List Char
  | 0, cs => cs
  | fuel + 1, cs =>
    match cs with
    | [] => []
    | '$' :: '\x7b' :: rest =>
      let inside := rest.takeWhile (· != '\x7d')
      let name := inside.takeWhile (· != ':')
      let after := inside.dropWhile (· != ':')
      if inside.length == rest.length || !(after.isEmpty || ":-".toList.isPrefixOf after) then
        '$' :: '\x7b' :: expand lookup fuel rest
      else
        let chosen := ((lookup (String.ofList name)).map String.toList).getD (after.drop 2)
        chosen ++ expand lookup fuel (rest.drop (inside.length + 1))
    | c :: rest => c :: expand lookup fuel rest

/-- The value of a variable: a name that is bound without a value hides the outer one. -/
def lookup (outer : String → Option String) (done : List (String × Option String))
    (name : String) : Option String :=
  match done.lookup name with
  | some bound => some (bound.getD "")
  | none => outer name

/-- Binds a name, in its old place if it has one. -/
def bind (name : String) (value : Option String) :
    List (String × Option String) → List (String × Option String)
  | [] => [(name, value)]
  | (n, v) :: rest => if n == name then (n, value) :: rest else (n, v) :: bind name value rest

/-- The variables that a file sets, in the order in which it first names them. -/
def parse (outer : String → Option String) (text : String) : List (String × Option String) :=
  let cs := plainLines text.toList
  (bindings (cs.length + 1) cs).foldl
    (fun done b =>
      let value := b.value.map fun v => String.ofList (expand (lookup outer done) v.length v)
      bind b.name value done) []

end ExpiringStore.EnvFile
