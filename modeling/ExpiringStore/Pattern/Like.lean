/-!
# Match patterns of the table

The table knows one kind of pattern: `%` for any sequence, `_` for one
character, and a backslash that takes the next character literally.  `ofGlob`
writes a key pattern as such a match pattern, and `accepts` matches.

The matcher works from the end of the pattern to its start.  For each tail of
the text it keeps whether the rest of the pattern accepts it, so its work is
the product of the two lengths.
-/

namespace ExpiringStore.Like

/-- Must a character be escaped to stand for itself? -/
def isSpecial (c : Char) : Bool := c == '%' || c == '_' || c == '\\'

/-- A key pattern as a match pattern. -/
def ofGlob : List Char → List Char
  | [] => []
  | ['\\'] => ['\\', '\\']
  | '\\' :: c :: rest => (if isSpecial c then ['\\', c] else [c]) ++ ofGlob rest
  | c :: rest => (if c == '*' then '%' else if c == '?' then '_' else c) :: ofGlob rest

/-! ## Matching -/

/-- The column of a test on one character, from the column of what follows:
a tail is accepted if its first character passes and the next tail is accepted. -/
def oneThen (test : Char → Bool) : List Char → List Bool → List Bool
  | c :: text, _ :: later => (test c && later.headD false) :: oneThen test text later
  | _, _ => [false]

/-- The column of any sequence, from the column of what follows: a tail is
accepted if it or a later one is. -/
def anyThen : List Bool → List Bool
  | [] => []
  | b :: later =>
    let after := anyThen later
    (b || after.headD false) :: after

/-- The column of the empty pattern: only the empty tail is accepted. -/
def nothing : List Char → List Bool
  | [] => [true]
  | _ :: text => false :: nothing text

/-- For each tail of the text, longest first, whether the pattern accepts it.
A backslash at the end of a pattern accepts nothing. -/
def column (text : List Char) : List Char → List Bool
  | [] => nothing text
  | ['\\'] => oneThen (fun _ => false) text (nothing text)
  | '\\' :: c :: rest => oneThen (· == c) text (column text rest)
  | c :: rest =>
    if c == '%' then anyThen (column text rest)
    else if c == '_' then oneThen (fun _ => true) text (column text rest)
    else oneThen (· == c) text (column text rest)

def accepts (pattern text : List Char) : Bool := (column text pattern).headD false

/-- The part of a text that takes part in matching: it ends before a null character. -/
def visible (text : List Char) : List Char := text.takeWhile (· != '\x00')

/-- The characters with which every text begins that the pattern accepts. -/
def front : List Char → List Char
  | [] => []
  | ['\\'] => ['\\']
  | '\\' :: c :: rest => c :: front rest
  | c :: rest => if c == '%' || c == '_' then [] else c :: front rest

/-- The most octets of a pattern that is matched against a key. -/
def longest : Nat := 50000

/-- Is the pattern too long to be matched against the key?  A key that does not
begin as the pattern asks is told apart without matching. -/
def overtaxes (pattern key : String) : Bool :=
  longest < pattern.utf8ByteSize &&
    (front (visible pattern.toList)).isPrefixOf (visible key.toList)

def selects (pattern key : String) : Bool :=
  accepts (visible pattern.toList) (visible key.toList)

end ExpiringStore.Like

namespace ExpiringStore

/-- A key pattern as the match pattern of the table. -/
def likeOfGlob (pattern : String) : String := String.ofList (Like.ofGlob pattern.toList)

end ExpiringStore
