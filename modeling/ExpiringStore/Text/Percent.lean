import ExpiringStore.Json.Printer
import ExpiringStore.Json.Reader
import ExpiringStore.Text.Utf8

/-!
# Percent signs

Characters with a meaning of their own in a URL are written as their UTF-8
octets, each a percent sign and two hexadecimal digits.

    encode [] "a b" = "a%20b"        decode "a%20b" = "a b"

Reading leaves a percent sign alone that no two digits follow, and puts a mark
in place of octets that are no text.
-/

namespace ExpiringStore.Percent

/-- Is the character written as it is everywhere? -/
def isPlain (c : Char) : Bool :=
  c.isAlphanum || c == '_' || c == '.' || c == '-' || c == '~'

/-- The UTF-8 octets of a character. -/
def octetsOf (c : Char) : List Nat := (String.singleton c).toUTF8.toList.map (·.toNat)

/-- A percent sign and two digits. -/
def escape (octet : Nat) : List Char := '%' :: (Json.hexDigits octet 2).map Char.toUpper

/-- Writes a text; some characters besides the plain ones stay. -/
def encode (safe : List Char) (s : String) : String :=
  String.ofList (s.toList.flatMap fun c =>
    if isPlain c || safe.contains c then [c] else (octetsOf c).flatMap escape)

def octets : List Char → List Nat
  | '%' :: a :: b :: rest =>
    match Json.Reader.hexDigit? a, Json.Reader.hexDigit? b with
    | some high, some low => (high * 16 + low) :: octets rest
    | _, _ => octetsOf '%' ++ octets (a :: b :: rest)
  | c :: rest => octetsOf c ++ octets rest
  | [] => []

/-- Reads a text. -/
def decode (s : String) : String := Utf8.decodeLossy (octets s.toList)

/-- Writes a name or a value of a query, where a plus sign stands for a blank. -/
def encodeField (s : String) : String :=
  String.ofList ((encode [' '] s).toList.map fun c => if c == ' ' then '+' else c)

/-- Reads a name or a value of a query. -/
def decodeField (s : String) : String :=
  decode (String.ofList (s.toList.map fun c => if c == '+' then ' ' else c))

end ExpiringStore.Percent
