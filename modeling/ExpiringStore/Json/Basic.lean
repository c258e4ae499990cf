import ExpiringStore.Number.Basic

/-!
# Structured data

The stored form of every value: null, truth values, numbers, texts, arrays and
objects whose fields keep their order.  `Fields.put` is the only way fields are
added: a name that is there already keeps its place and takes the new value, so
an object built with it never holds one name twice.
-/

namespace ExpiringStore

/-- Structured data as a payload holds it. -/
inductive Json where
  | null
  | bool (b : Bool)
  | int (n : Int)
  | float (x : Float)
  | str (s : String)
  | array (items : List Json)
  | object (fields : List (String × Json))
  deriving Inhabited

namespace Json

def field? (name : String) : List (String × Json) → Option Json
  | [] => none
  | (n, v) :: rest => if n == name then some v else field? name rest

/-- Sets a field: in its place if the name is there, at the end otherwise. -/
def put (name : String) (value : Json) : List (String × Json) → List (String × Json)
  | [] => [(name, value)]
  | (n, v) :: rest => if n == name then (n, value) :: rest else (n, v) :: put name value rest

theorem field?_put_self (name : String) (value : Json) (fields : List (String × Json)) :
    field? name (put name value fields) = some value := by
  induction fields with
  | nil => simp [put, field?]
  | cons f rest ih =>
    obtain ⟨n, v⟩ := f
    by_cases h : n = name <;> simp [put, field?, h, ih]

theorem field?_put_other {name other : String} (h : other ≠ name) (value : Json)
    (fields : List (String × Json)) :
    field? other (put name value fields) = field? other fields := by
  induction fields with
  | nil => simp [put, field?, h.symm]
  | cons f rest ih =>
    obtain ⟨n, v⟩ := f
    by_cases hn : n = name
    · have : ¬ name = other := fun e => h e.symm
      simp [put, field?, hn, this]
    · by_cases ho : n = other
      · subst ho
        simp [put, field?, hn]
      · simp [put, field?, hn, ho, ih]

/-- The fields of a list of pairs, a later value of a name replacing the earlier. -/
def fieldsOf (pairs : List (String × Json)) : List (String × Json) :=
  pairs.foldl (fun fields p => put p.1 p.2 fields) []

end Json

end ExpiringStore
