import ExpiringStore.Value.Basic

/-!
# Lifetime policies

An absolute lifetime runs from the last write, a sliding one from the last
refreshing read.  A stored policy is a word; a word that is neither policy
means the absolute one.
-/

namespace ExpiringStore

/-- From where the lifetime of an entry is measured. -/
inductive Policy where
  | absolute
  | sliding
  deriving DecidableEq, Repr, Inhabited

namespace Policy

def word : Policy → String
  | .absolute => "ABSOLUTE"
  | .sliding => "SLIDING"

/-- The policy as a value: a member of an enumeration of texts. -/
def member (p : Policy) : Member := ⟨"TTLPolicy", p.word, p.word⟩

def toValue (p : Policy) : Value := .member p.member

def ofWord? (w : String) : Option Policy :=
  if w == "ABSOLUTE" then some .absolute else if w == "SLIDING" then some .sliding else none

def ofStored (w : String) : Policy := (ofWord? w).getD .absolute

/-- The policy that any value stands for: the one of its word, or the absolute one. -/
def ofValue (v : Value) : Policy := (v.text?.map ofStored).getD .absolute

theorem ofWord?_word (p : Policy) : ofWord? p.word = some p := by cases p <;> decide

theorem ofStored_word (p : Policy) : ofStored p.word = p := by simp [ofStored, ofWord?_word]

end Policy

end ExpiringStore
