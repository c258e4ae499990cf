import ExpiringStore.Store.Removal

/-!
# Calls

The operations that a store offers on its entries, as data: what is called
with which arguments, and what it answers.
-/

namespace ExpiringStore

/-- An operation on entries with its arguments. -/
inductive Call where
  | get (key : Value) (refresh : Bool := true) (target : Option Target := none)
  | containsKey (key : Value)
  | getAll (keys : Value) (target : Option Target := none)
  | getKeys (pattern : Value)
  | getAllKeys
  | getRemainingTtl (key : Value)
  | getTtlPolicy (key : Value)
  | size
  | put (key value ttl policy : Value)
  | putIfAbsent (key value ttl policy : Value)
  | putAll (entries ttl policy : Value)
  | refreshTtl (key ttl policy : Value)
  | evict (key : Value)
  | evictAll (keys : Value)
  | evictByPattern (pattern : Value)
  | clear
  | cleanupExpired
  deriving Inhabited

inductive Answer where
  | value (v : Value)
  | lookup (r : Lookup)
  /-- Keys with their values, in order. -/
  | found (entries : List (Key × Value))
  /-- The rows of a table, in order. -/
  | rows (rows : List (String × Row Number))
  /-- The answers of several operations. -/
  | several (answers : List (Except Failure Answer))
  deriving Inhabited

namespace Answer

def nothing : Answer := .value .none

def bool (b : Bool) : Answer := .value (.bool b)

def count (n : Nat) : Answer := .value (.int n)

def texts (items : List String) : Answer := .value (.list (items.map .str))

/-- A value that may be missing. -/
def optional {α : Type} (toValue : α → Value) (a : Option α) : Answer :=
  .value ((a.map toValue).getD .none)

/-- The word by which answers are told apart: the kind of a lookup, otherwise the type. -/
def kindName : Answer → String
  | .value v => v.typeName
  | .lookup r => r.state
  | .found _ => "dict"
  | .rows _ => "list"
  | .several _ => "dict"

end Answer

namespace Call

variable {τ : Type} [Instant τ] [Delay τ]

def program (c : Config τ) : Call → Operation τ Answer
  | .get key refresh target => .lookup <$> Operation.get c key refresh target
  | .containsKey key => .bool <$> Operation.containsKey c key
  | .getAll keys target => .found <$> Operation.getAll c keys target
  | .getKeys pattern => .texts <$> Operation.getKeys c pattern
  | .getAllKeys => .texts <$> Operation.getAllKeys c
  | .getRemainingTtl key => .optional .duration <$> Operation.getRemainingTtl c key
  | .getTtlPolicy key => .optional Policy.toValue <$> Operation.getTtlPolicy c key
  | .size => .count <$> Operation.size c
  | .put key value ttl policy => (fun _ => .nothing) <$> Operation.put c key value ttl policy
  | .putIfAbsent key value ttl policy => .lookup <$> Operation.putIfAbsent c key value ttl policy
  | .putAll entries ttl policy => .count <$> Operation.putAll c entries ttl policy
  | .refreshTtl key ttl policy => .bool <$> Operation.refreshTtl c key ttl policy
  | .evict key => .bool <$> Operation.evict c key
  | .evictAll keys => .count <$> Operation.evictAll c keys
  | .evictByPattern pattern => .count <$> Operation.evictByPattern c pattern
  | .clear => .count <$> Operation.clear c
  | .cleanupExpired => .count <$> Operation.cleanupExpired c

end Call

end ExpiringStore
