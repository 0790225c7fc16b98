import LanguageBridge.Text.Utf8

namespace LanguageBridge.Text

/-! Percent escapes. A byte is written as itself when it is an unreserved character, and
otherwise as a percent sign and two hexadecimal digits. Texts are strings of Unicode scalar values,
all of which have bytes; a lone surrogate has none, and is not among them. -/

/-- Letters and digits of the basic Latin alphabet, and four marks. -/
def isUnreserved (c : Char) : Bool :=
  ('a' ≤ c && c ≤ 'z') || ('A' ≤ c && c ≤ 'Z') || ('0' ≤ c && c ≤ '9') ||
    c = '-' || c = '.' || c = '_' || c = '~'

def hexValue? (c : Char) : Option Nat :=
  if '0' ≤ c ∧ c ≤ '9' then some (c.toNat - '0'.toNat)
  else if 'a' ≤ c ∧ c ≤ 'f' then some (c.toNat - 'a'.toNat + 10)
  else if 'A' ≤ c ∧ c ≤ 'F' then some (c.toNat - 'A'.toNat + 10)
  else none

def hexByte? (high low : Char) : Option UInt8 :=
  match hexValue? high, hexValue? low with
  | some h, some l => some (UInt8.ofNat (h * 16 + l))
  | _, _ => none

def upperHexDigit (n : Nat) : Char :=
  if n < 10 then Char.ofNat ('0'.toNat + n) else Char.ofNat ('A'.toNat + (n - 10))

def escapeByte (byte : UInt8) : List Char :=
  ['%', upperHexDigit (byte.toNat / 16), upperHexDigit (byte.toNat % 16)]

/-- Escapes every byte except unreserved characters and those that `safe` allows. -/
def encodeByte (safe : Char → Bool) (byte : UInt8) : List Char :=
  let c := Char.ofNat byte.toNat
  if byte < 0x80 ∧ (isUnreserved c || safe c) then [c] else escapeByte byte

def percentEncodeKeeping (safe : Char → Bool) (text : String) : String :=
  String.ofList (text.toUTF8.data.toList.flatMap (encodeByte safe))

def percentEncode (text : String) : String :=
  percentEncodeKeeping (fun _ => false) text

/-- The bytes spelled by a text that holds unreserved characters and escapes only. -/
def spelledBytes? : List Char → Option (List UInt8)
  | [] => some []
  | '%' :: high :: low :: rest =>
    match hexByte? high low with
    | some byte => (spelledBytes? rest).map (byte :: ·)
    | none => none
  | c :: rest =>
    if isUnreserved c then (spelledBytes? rest).map (UInt8.ofNat c.toNat :: ·) else none

def spelledText? (spelling : List Char) : Option String :=
  match spelledBytes? spelling with
  | some bytes => String.fromUTF8? bytes.toByteArray
  | none => none

/-- The bytes of a text with its escapes decoded; what is no escape stays. -/
def unescapedBytes : List Char → List UInt8
  | [] => []
  | '%' :: high :: low :: rest =>
    match hexByte? high low with
    | some byte => byte :: unescapedBytes rest
    | none => '%'.toUInt8 :: unescapedBytes (high :: low :: rest)
  | c :: rest => (String.singleton c).toUTF8.data.toList ++ unescapedBytes rest

def percentDecode (text : String) : String :=
  String.ofList (decodeUtf8 (unescapedBytes text.toList))

/-- Escapes in capitals, and none for unreserved characters. -/
def normalizeEscapes : List Char → List Char
  | [] => []
  | '%' :: high :: low :: rest =>
    match hexByte? high low with
    | some byte => encodeByte (fun _ => false) byte ++ normalizeEscapes rest
    | none => '%' :: normalizeEscapes (high :: low :: rest)
  | c :: rest => c :: normalizeEscapes rest

end LanguageBridge.Text
