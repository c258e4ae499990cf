import ExpiringStore.Value.Basic
import ExpiringStore.Number.Rounding

/-!
# Statistics

Four counters: lookups that found and that missed, entries written, entries
removed on request.  The rates relate hits and misses to all lookups and are
zero before the first lookup.
-/

namespace ExpiringStore

/-- The counters of a store. -/
structure Statistics where
  hits : Int := 0
  misses : Int := 0
  puts : Int := 0
  evictions : Int := 0
  deriving DecidableEq, Repr, Inhabited

namespace Statistics

def requests (s : Statistics) : Int := s.hits + s.misses

/-- A part of the requests as a double. -/
def rate (s : Statistics) (part : Int) : Float :=
  if s.requests == 0 then 0 else doubleOfRatio part s.requests

def hitRate (s : Statistics) : Float := s.rate s.hits

def missRate (s : Statistics) : Float := s.rate s.misses

/-- Is a rate too large for a double?  It takes counters below zero to make one so. -/
def exceedsDoubles (s : Statistics) : Bool := s.hitRate.isInf || s.missRate.isInf

def tooLarge : String := "integer division result too large for a float"

/-- The counters and the rates, the latter to four places. -/
def fields (s : Statistics) : List (String × Value) := [
  ("hits", .int s.hits),
  ("misses", .int s.misses),
  ("puts", .int s.puts),
  ("evictions", .int s.evictions),
  ("request_count", .int s.requests),
  ("hit_rate", .float (roundPlaces s.hitRate 4)),
  ("miss_rate", .float (roundPlaces s.missRate 4))]

/-- A line for people, the hit rate as a percentage to two places. -/
def text (s : Statistics) : String :=
  s!"CacheStatistics(hits={s.hits}, misses={s.misses}, hit_rate=" ++
    fixedText (s.hitRate * 100) 2 ++ s!"%, puts={s.puts}, evictions={s.evictions})"

inductive Counter where
  | hits
  | misses
  | puts
  | evictions
  deriving DecidableEq, Repr

/-- Adds to a counter. -/
def record (s : Statistics) (c : Counter) (n : Int) : Statistics :=
  match c with
  | .hits => { s with hits := s.hits + n }
  | .misses => { s with misses := s.misses + n }
  | .puts => { s with puts := s.puts + n }
  | .evictions => { s with evictions := s.evictions + n }

end Statistics

end ExpiringStore
