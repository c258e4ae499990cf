import ExpiringStore.Failure

/-!
# Results of a lookup

A lookup finds a value, finds a stored null, or misses.  Finding a null is
still finding: only a miss counts as not found.
-/

namespace ExpiringStore

inductive Lookup where
  | hit (v : Value)
  | null
  | miss
  deriving Inhabited

namespace Lookup

/-- The word for the kind of result. -/
def state : Lookup → String
  | .hit _ => "hit"
  | .null => "null"
  | .miss => "miss"

/-- The result that a decoded payload means: the null marker is a stored null. -/
def ofDecoded : Value → Lookup
  | .nullMarker => .null
  | v => .hit v

def isFound : Lookup → Bool
  | .miss => false
  | _ => true

def isNull : Lookup → Bool
  | .null => true
  | _ => false

/-- The value found, the null marker for a stored null. -/
def value? : Lookup → Except Failure Value
  | .hit v => .ok v
  | .null => .ok .nullMarker
  | .miss => .error .absentValue

/-- The value found, or the default on a miss; a stored null is null. -/
def getD (r : Lookup) (fallback : Value := .none) : Value :=
  match r with
  | .hit v => v
  | .null => .none
  | .miss => fallback

/-- Results of one kind with equal values. -/
def same : Lookup → Lookup → Bool
  | .hit a, .hit b => a.same b
  | .null, .null => true
  | .miss, .miss => true
  | _, _ => false

/-- Is the result one of those that there is only one of? -/
def isUnique : Lookup → Bool
  | .hit _ => false
  | _ => true

/-- The result as diagnostics show it. -/
def quoted : Lookup → String
  | .hit v => "CacheResult.hit(" ++ v.quoted ++ ")"
  | r => s!"CacheResult.{r.state}()"

/-- What a result shows of itself; a miss has no value to show. -/
def fields (r : Lookup) : List (String × Value) :=
  [ ("state", .str r.state),
    ("found", .bool r.isFound),
    ("is_null", .bool r.isNull),
    ("bool", .bool r.isFound),
    ("get", r.getD (.str "<default>")) ] ++
  (match r.value? with
    | .ok v => [("value", v)]
    | .error _ => [])

end Lookup

end ExpiringStore
