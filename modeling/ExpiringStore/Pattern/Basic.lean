/-!
# Key patterns

A pattern is read as a list of tokens: a wild card for any sequence, a wild card
for one character, or a character that stands for itself.  `Accepts` says which
texts a pattern describes.

    * %   any sequence          ? _   one character          \c   the character c
-/

namespace ExpiringStore.Pattern

/-- What a part of a pattern asks for. -/
inductive Token where
  | anySequence
  | anyCharacter
  | literal (c : Char)
  deriving DecidableEq, Repr

/-- The tokens of a pattern.  A backslash takes the next character literally;
one at the end stands for itself. -/
def tokens : List Char → List Token
  | [] => []
  | ['\\'] => [.literal '\\']
  | '\\' :: c :: rest => .literal c :: tokens rest
  | c :: rest =>
    (if c == '*' || c == '%' then .anySequence
      else if c == '?' || c == '_' then .anyCharacter
      else .literal c) :: tokens rest

/-- The texts that a list of tokens describes. -/
inductive Accepts : List Token → List Char → Prop where
  | nil : Accepts [] []
  | skip {ts : List Token} {s : List Char} : Accepts ts s → Accepts (.anySequence :: ts) s
  | take {ts : List Token} {c : Char} {s : List Char} :
      Accepts (.anySequence :: ts) s → Accepts (.anySequence :: ts) (c :: s)
  | character {ts : List Token} {c : Char} {s : List Char} :
      Accepts ts s → Accepts (.anyCharacter :: ts) (c :: s)
  | literal {ts : List Token} {c : Char} {s : List Char} :
      Accepts ts s → Accepts (.literal c :: ts) (c :: s)

end ExpiringStore.Pattern
