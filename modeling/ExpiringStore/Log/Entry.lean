import ExpiringStore.Value.Basic

/-!
# Log entries

An entry has a level, says what happened, and carries named values.
-/

namespace ExpiringStore.Log

/-- How much an entry matters. -/
inductive Level where
  | debug
  | info
  | warning
  | error
  | critical
  deriving DecidableEq, Repr, Inhabited

namespace Level

/-- The level in lower case, as entries show it. -/
def word : Level → String
  | .debug => "debug"
  | .info => "info"
  | .warning => "warning"
  | .error => "error"
  | .critical => "critical"

/-- The place of a level among all levels. -/
def rank : Level → Nat
  | .debug => 0
  | .info => 1
  | .warning => 2
  | .error => 3
  | .critical => 4

/-- Other words for levels. -/
def synonyms : List (String × Level) :=
  [("warn", .warning), ("fatal", .critical), ("exception", .error)]

/-- The level that is asked for by a word or another word for it. -/
def named? (w : String) : Option Level :=
  ([Level.debug, .info, .warning, .error, .critical].find? (·.word == w)).or (synonyms.lookup w)

def ofWord? (w : String) : Option Level :=
  [Level.debug, .info, .warning, .error, .critical].find? (·.word == w.toLower)

end Level

/-- What happened, and the values that say more about it. -/
structure Entry where
  level : Level
  event : String
  fields : List (String × Value) := []
  deriving Inhabited

/-- Sets a field, in its old place if it has one. -/
def setField (fields : List (String × Value)) (f : String × Value) : List (String × Value) :=
  if fields.any (·.1 == f.1) then fields.map fun g => if g.1 == f.1 then f else g
  else fields ++ [f]

/-- The entry of an operation on a key; whether it found something is added where that is known. -/
def operation (name : String) (key : Value) (extra : List (String × Value))
    (hit : Option Value := none) : Entry :=
  let found := match hit with
    | some h => [("cache_hit", h)]
    | none => []
  ⟨.debug, "Cache operation",
    (extra ++ found).foldl setField [("operation", .str name), ("cache_key", key)]⟩

end ExpiringStore.Log
