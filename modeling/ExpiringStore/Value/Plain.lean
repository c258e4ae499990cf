import ExpiringStore.Value.Quoted

/-!
# Values as running text

The form in which a value is filled into a sentence: texts stand for
themselves, calendar values and numbers are written out, and everything else
looks as diagnostics show it.
-/

namespace ExpiringStore

/-- Days, where there are any, and a clock; a negative duration counts back whole days. -/
def Duration.plain (d : Duration) : String :=
  let day := d.days
  let days := if day == 0 then ""
    else toString day ++ (if day.natAbs == 1 then " day, " else " days, ")
  let clock := toString (d.seconds / 3600) ++ ":" ++ padded (d.seconds / 60 % 60) 2 ++ ":" ++
    padded (d.seconds % 60) 2
  days ++ clock ++ (if d.microseconds == 0 then "" else "." ++ padded d.microseconds 6)

namespace Value

/-- The value as running text. -/
def plain : Value → String
  | .str s => s
  | .member m => m.type ++ "." ++ m.name
  | .moment m => m.date.text ++ " " ++ m.time.text
  | .date d => d.text
  | .time t => t.text
  | .duration d => d.plain
  | .decimal d => d.text
  | .uuid s => s
  | .record .declared _ fields => String.intercalate " " (quotedFields fields)
  | v => v.quoted

end Value

end ExpiringStore
