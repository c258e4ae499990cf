import ExpiringStore.Text.Printable
import ExpiringStore.Json.Printer

/-!
# Quoted text

A text in quotes as diagnostics show it: single quotes unless the text holds
one and no double quote; the quote in use, the backslash and characters that do
not show are escaped.
-/

namespace ExpiringStore.Quoted

def mark (s : List Char) : Char := if s.contains '\'' && !s.contains '"' then '"' else '\''

def escape (quote c : Char) : List Char :=
  if c == quote || c == '\\' then ['\\', c]
  else if c == '\t' then ['\\', 't']
  else if c == '\n' then ['\\', 'n']
  else if c == '\r' then ['\\', 'r']
  else if isPrintable c then [c]
  else if c.toNat ≤ 0xFF then ['\\', 'x'] ++ Json.hexDigits c.toNat 2
  else if c.toNat ≤ 0xFFFF then ['\\', 'u'] ++ Json.hexDigits c.toNat 4
  else ['\\', 'U'] ++ Json.hexDigits c.toNat 8

def text (s : String) : String :=
  let chars := s.toList
  let quote := mark chars
  String.ofList (quote :: chars.flatMap (escape quote) ++ [quote])

/-- An octet between quotes: printable ASCII as it is, all else escaped. -/
def escapeOctet (quote : Char) (b : Nat) : List Char :=
  let c := Char.ofNat b
  if c == quote || c == '\\' then ['\\', c]
  else if c == '\t' then ['\\', 't']
  else if c == '\n' then ['\\', 'n']
  else if c == '\r' then ['\\', 'r']
  else if 0x20 ≤ b && b < 0x7F then [c]
  else ['\\', 'x'] ++ Json.hexDigits b 2

/-- Octets between quotes, marked with a leading letter. -/
def octets (bytes : List Nat) : String :=
  let quote := mark (bytes.map Char.ofNat)
  String.ofList ('b' :: quote :: bytes.flatMap (escapeOctet quote) ++ [quote])

end ExpiringStore.Quoted
