/-!
# Characters

Blanks, decimal digits and capitals, as far as texts are read for them.

The blanks are what Unicode calls white space; a wider class takes in some
controls.  Each script that counts in tens has its ten digits in a row, the
zero first.

    digitOf? '٣' = some 3

Besides the ASCII letters some characters have capitals that are ASCII letters:
the dotless i, the long s, the sharp s and the Latin ligatures.  Every other
character is left alone; its capitals are not ASCII, so it cannot occur in a
text whose capitals are.
-/

namespace ExpiringStore

/-! ## Blanks -/

def isBlank (c : Char) : Bool :=
  let n := c.toNat
  (0x09 ≤ n && n ≤ 0x0D) || n == 0x20 || n == 0x85 || n == 0xA0 || n == 0x1680 ||
    (0x2000 ≤ n && n ≤ 0x200A) || n == 0x2028 || n == 0x2029 || n == 0x202F || n == 0x205F ||
    n == 0x3000

/-- Is the character white space, or one of the separators among the controls? -/
def isSpacing (c : Char) : Bool := isBlank c || (0x1C ≤ c.toNat && c.toNat ≤ 0x1F)

/-- The characters without those of a kind at either end. -/
def trimmed (fits : Char → Bool) (cs : List Char) : List Char :=
  ((cs.dropWhile fits).reverse.dropWhile fits).reverse

def trimBlanks (cs : List Char) : List Char := trimmed isBlank cs

/-! ## Digits -/

/-- The code points of the zeros, in order. -/
def zeroDigits : List Nat := [
  0x30, 0x660, 0x6f0, 0x7c0, 0x966, 0x9e6, 0xa66, 0xae6, 0xb66, 0xbe6, 0xc66, 0xce6, 0xd66, 0xde6,
  0xe50, 0xed0, 0xf20, 0x1040, 0x1090, 0x17e0, 0x1810, 0x1946, 0x19d0, 0x1a80, 0x1a90, 0x1b50,
  0x1bb0, 0x1c40, 0x1c50, 0xa620, 0xa8d0, 0xa900, 0xa9d0, 0xa9f0, 0xaa50, 0xabf0, 0xff10, 0x104a0,
  0x10d30, 0x11066, 0x110f0, 0x11136, 0x111d0, 0x112f0, 0x11450, 0x114d0, 0x11650, 0x116c0,
  0x11730, 0x118e0, 0x11950, 0x11c50, 0x11d50, 0x11da0, 0x16a60, 0x16ac0, 0x16b50, 0x1d7ce,
  0x1d7d8, 0x1d7e2, 0x1d7ec, 0x1d7f6, 0x1e140, 0x1e2f0, 0x1e950, 0x1fbf0]

def digitOf? (c : Char) : Option Nat :=
  (zeroDigits.find? fun z => z ≤ c.toNat && c.toNat < z + 10).map (c.toNat - ·)

/-- The ASCII digit of the same value; every other character stays. -/
def asciiDigit (c : Char) : Char :=
  match digitOf? c with
  | some n => Char.ofNat (0x30 + n)
  | none => c

/-! ## Capitals and small letters -/

def capitals (c : Char) : List Char :=
  match c with
  | 'ı' => ['I']
  | 'ſ' => ['S']
  | 'ß' => ['S', 'S']
  | 'ﬀ' => ['F', 'F']
  | 'ﬁ' => ['F', 'I']
  | 'ﬂ' => ['F', 'L']
  | 'ﬃ' => ['F', 'F', 'I']
  | 'ﬄ' => ['F', 'F', 'L']
  | 'ﬅ' => ['S', 'T']
  | 'ﬆ' => ['S', 'T']
  | c => [c.toUpper]

def capitalize (s : String) : String := String.ofList (s.toList.flatMap capitals)

/-- The small letter of a character.  Besides the ASCII capitals only the kelvin
sign has a small letter that is an ASCII letter. -/
def smallLetter (c : Char) : Char := if c == '\u212A' then 'k' else c.toLower

def smallLetters (s : String) : String := String.ofList (s.toList.map smallLetter)

end ExpiringStore
