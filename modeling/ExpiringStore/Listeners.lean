/-!
# Listeners

The listeners of a store, in the order in which they were registered.  A
listener that is registered already is not registered again, and removing one
takes it out at its first place.

    (add ls l).registered = ls.registered            if l is registered
    (add ls l).registered = ls.registered ++ [l]     if it is not
-/

namespace ExpiringStore

/-- A listener: which one it is, and the type it is shown as. -/
structure ListenerId where
  name : String
  type : String
  deriving DecidableEq, Repr, Inhabited

/-- Registered listeners, the first to be called first. -/
structure Listeners where
  registered : List ListenerId := []
  deriving DecidableEq, Repr, Inhabited

namespace Listeners

/-- The listeners that a store is set up with; an empty place is left out. -/
def ofList (given : List (Option ListenerId)) : Listeners := ⟨given.filterMap id⟩

def isRegistered (ls : Listeners) (l : ListenerId) : Bool := ls.registered.contains l

def add (ls : Listeners) (l : ListenerId) : Listeners :=
  if ls.isRegistered l then ls else ⟨ls.registered ++ [l]⟩

def remove (ls : Listeners) (l : ListenerId) : Listeners := ⟨ls.registered.erase l⟩

def names (ls : Listeners) : List String := ls.registered.map (·.name)

end Listeners

end ExpiringStore
