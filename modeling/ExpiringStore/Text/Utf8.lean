/-!
# Octets as text

`decode` reads UTF-8 and, where the octets are not text, says which octet is
the first that does not belong: the start of the ill-formed sequence.

    decode bs = .ok s          the octets are the text s
    decode bs = .error (i, b)  the octets before i are text, and octet i is b

`decodeLossy` always gives a text, with a mark in place of what is not.
-/

namespace ExpiringStore.Utf8

/-- The code point of a well-formed sequence at the head, and its length. -/
def head? : List Nat → Option (Nat × Nat)
  | a :: rest =>
    let tail (b : Nat) : Bool := 0x80 ≤ b && b ≤ 0xBF
    if a ≤ 0x7F then some (a, 1)
    else if 0xC2 ≤ a && a ≤ 0xDF then
      match rest with
      | b :: _ => if tail b then some ((a - 0xC0) * 64 + (b - 0x80), 2) else none
      | _ => none
    else if 0xE0 ≤ a && a ≤ 0xEF then
      match rest with
      | b :: c :: _ =>
        let low := if a == 0xE0 then 0xA0 else 0x80
        let high := if a == 0xED then 0x9F else 0xBF
        if low ≤ b && b ≤ high && tail c then
          some ((a - 0xE0) * 4096 + (b - 0x80) * 64 + (c - 0x80), 3)
        else none
      | _ => none
    else if 0xF0 ≤ a && a ≤ 0xF4 then
      match rest with
      | b :: c :: d :: _ =>
        let low := if a == 0xF0 then 0x90 else 0x80
        let high := if a == 0xF4 then 0x8F else 0xBF
        if low ≤ b && b ≤ high && tail c && tail d then
          some ((a - 0xF0) * 262144 + (b - 0x80) * 4096 + (c - 0x80) * 64 + (d - 0x80), 4)
        else none
      | _ => none
    else none
  | [] => none

/-- The octets that the second octet of a sequence may be. -/
def secondRange (a : Nat) : Nat × Nat :=
  if a == 0xE0 then (0xA0, 0xBF)
  else if a == 0xED then (0x80, 0x9F)
  else if a == 0xF0 then (0x90, 0xBF)
  else if a == 0xF4 then (0x80, 0x8F)
  else (0x80, 0xBF)

/-- How many octets at the head begin a well-formed sequence without being one;
one if none do. -/
def brokenLength : List Nat → Nat
  | a :: b :: rest =>
    let (low, high) := secondRange a
    if !(0xE0 ≤ a && a ≤ 0xF4 && low ≤ b && b ≤ high) then 1
    else
      match rest with
      | c :: _ => if 0xF0 ≤ a && 0x80 ≤ c && c ≤ 0xBF then 3 else 2
      | [] => 2
  | _ => 1

/-- Reads the octets from position `i` on; each step uses up at least one. -/
def decodeFrom (i : Nat) (done : List Char) : Nat → List Nat → Except (Nat × Nat) (List Char)
  | _, [] => .ok done.reverse
  | 0, a :: _ => .error (i, a)
  | fuel + 1, a :: rest =>
    match head? (a :: rest) with
    | some (code, size) =>
      decodeFrom (i + size) (Char.ofNat code :: done) fuel ((a :: rest).drop size)
    | none => .error (i, a)

/-- The text of some octets, or the position and value of the first octet that
does not belong to text. -/
def decode (octets : List Nat) : Except (Nat × Nat) String :=
  (decodeFrom 0 [] octets.length octets).map String.ofList

/-- Reads octets, with one mark for each run that begins a sequence and breaks off. -/
def decodeLossyFrom : Nat → List Nat → List Char
  | _, [] => []
  | 0, _ :: _ => []
  | fuel + 1, octets =>
    match head? octets with
    | some (code, size) => Char.ofNat code :: decodeLossyFrom fuel (octets.drop size)
    | none => '\uFFFD' :: decodeLossyFrom fuel (octets.drop (brokenLength octets))

/-- The text of some octets, what is not text replaced by marks. -/
def decodeLossy (octets : List Nat) : String :=
  String.ofList (decodeLossyFrom octets.length octets)

end ExpiringStore.Utf8
