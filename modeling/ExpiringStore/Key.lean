import ExpiringStore.Value.Quoted

/-!
# Keys

A key is a text, or a member of an enumeration of texts; the table knows only
its text.  Keys with one text are one key.
-/

namespace ExpiringStore

/-- A key as the caller gave it. -/
inductive Key where
  | plain (s : String)
  | member (m : Member)
  deriving DecidableEq, Repr, Inhabited

namespace Key

def text : Key → String
  | .plain s => s
  | .member m => m.text

def toValue : Key → Value
  | .plain s => .str s
  | .member m => .member m

def quoted : Key → String
  | .plain s => Quoted.text s
  | .member m => m.quoted

def ofValue? : Value → Option Key
  | .str s => some (.plain s)
  | .member m => some (.member m)
  | _ => none

/-- The longest key, in characters. -/
def maxLength : Nat := 512

/-- Keys without repetition, the first of each text staying. -/
def distinct : List Key → List Key
  | [] => []
  | k :: rest => k :: (distinct rest).filter (·.text != k.text)

end Key

end ExpiringStore
