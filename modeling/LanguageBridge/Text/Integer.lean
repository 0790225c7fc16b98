import LanguageBridge.Text.Blank

namespace LanguageBridge.Text

/-! Whole numbers as they are typed: blanks around them and a sign are allowed, digits of any
script count, and a low line may stand between two digits. -/

/-- The zeros of all scripts; each is followed by its nine other digits. -/
def decimalZeros : List Nat :=
  [0x30, 0x660, 0x6F0, 0x7C0, 0x966, 0x9E6, 0xA66, 0xAE6, 0xB66, 0xBE6, 0xC66, 0xCE6, 0xD66, 0xDE6,
   0xE50, 0xED0, 0xF20, 0x1040, 0x1090, 0x17E0, 0x1810, 0x1946, 0x19D0, 0x1A80, 0x1A90, 0x1B50,
   0x1BB0, 0x1C40, 0x1C50, 0xA620, 0xA8D0, 0xA900, 0xA9D0, 0xA9F0, 0xAA50, 0xABF0, 0xFF10, 0x104A0,
   0x10D30, 0x11066, 0x110F0, 0x11136, 0x111D0, 0x112F0, 0x11450, 0x114D0, 0x11650, 0x116C0,
   0x11730, 0x118E0, 0x11950, 0x11C50, 0x11D50, 0x11DA0, 0x16A60, 0x16AC0, 0x16B50, 0x1D7CE,
   0x1D7D8, 0x1D7E2, 0x1D7EC, 0x1D7F6, 0x1E140, 0x1E2F0, 0x1E950, 0x1FBF0]

def digitValue? (c : Char) : Option Nat :=
  (decimalZeros.find? fun first => first ≤ c.toNat && c.toNat < first + 10).map (c.toNat - ·)

def digitsAfter (number : Nat) : List Char → Option Nat
  | [] => some number
  | '_' :: c :: rest =>
    match digitValue? c with
    | some digit => digitsAfter (number * 10 + digit) rest
    | none => none
  | c :: rest =>
    match digitValue? c with
    | some digit => digitsAfter (number * 10 + digit) rest
    | none => none

def natural? : List Char → Option Nat
  | [] => none
  | c :: rest => (digitValue? c).bind fun digit => digitsAfter digit rest

/-- The four separators of information are blank, but may not surround a number. -/
def surroundsNumber (c : Char) : Bool :=
  isBlank c && !(0x1C ≤ c.toNat && c.toNat ≤ 0x1F)

def digitLimit : Nat := 4300

def boundedNatural? (text : List Char) : Option Nat :=
  if (text.filter (· ≠ '_')).length ≤ digitLimit then natural? text else none

def integer? (text : String) : Option Int :=
  let trimmed := ((text.toList.dropWhile surroundsNumber).reverse.dropWhile surroundsNumber).reverse
  match trimmed with
  | '-' :: rest => (boundedNatural? rest).map fun number => -(number : Int)
  | '+' :: rest => (boundedNatural? rest).map fun number => (number : Int)
  | plain => (boundedNatural? plain).map fun number => (number : Int)

end LanguageBridge.Text
