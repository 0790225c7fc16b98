import LanguageBridge.Text.PrintableTable
import LanguageBridge.Protocol.Value

namespace LanguageBridge.Text

/-! How texts and data are shown inside messages. A text stands in single quotes, or in double
quotes when only those spare an escape; characters without a visible form are written as their
code in two, four or eight hexadecimal digits. -/

def isPrintable (c : Char) : Bool :=
  printableCodePoints.contains c

def hexDigit (n : Nat) : Char :=
  if n < 10 then Char.ofNat ('0'.toNat + n) else Char.ofNat ('a'.toNat + (n - 10))

/-- The last `width` hexadecimal digits of a number, least significant last. -/
def hexDigits : Nat → Nat → List Char
  | 0, _ => []
  | width + 1, n => hexDigits width (n / 16) ++ [hexDigit (n % 16)]

def quoteMark (text : List Char) : Char :=
  if text.contains '\'' && !text.contains '"' then '"' else '\''

def escapeCharacter (mark c : Char) : List Char :=
  if c = mark ∨ c = '\\' then ['\\', c]
  else if c = '\n' then ['\\', 'n']
  else if c = '\r' then ['\\', 'r']
  else if c = '\t' then ['\\', 't']
  else if isPrintable c then [c]
  else if c.toNat < 0x100 then '\\' :: 'x' :: hexDigits 2 c.toNat
  else if c.toNat < 0x10000 then '\\' :: 'u' :: hexDigits 4 c.toNat
  else '\\' :: 'U' :: hexDigits 8 c.toNat

def quoted (text : String) : String :=
  let mark := quoteMark text.toList
  String.ofList (mark :: text.toList.flatMap (escapeCharacter mark) ++ [mark])

def nothingWord : String := "None"

def truthWord (truth : Bool) : String :=
  if truth then "True" else "False"

end LanguageBridge.Text

namespace LanguageBridge

open Text

mutual

def Value.shown : Value → String
  | .null => nothingWord
  | .bool truth => truthWord truth
  | .int number => toString number
  | .str text => quoted text
  | .list items => "[" ++ ", ".intercalate (Value.shownItems items) ++ "]"
  | .map entries => "\x7b" ++ ", ".intercalate (Value.shownEntries entries) ++ "\x7d"
  | .position place => toString place.line ++ ":" ++ toString place.character
  | .range span => toString span.start.line ++ ":" ++ toString span.start.character ++ "-" ++
      toString span.stop.line ++ ":" ++ toString span.stop.character
  | .record type fields => type ++ "(" ++ ", ".intercalate (Value.shownEntries fields) ++ ")"

def Value.shownItems : List Value → List String
  | [] => []
  | item :: rest => item.shown :: Value.shownItems rest

def Value.shownEntries : List (String × Value) → List String
  | [] => []
  | (key, value) :: rest => (quoted key ++ ": " ++ value.shown) :: Value.shownEntries rest

end

/-- Data as text: a text is itself, all else is as in messages. -/
def Value.asText : Value → String
  | .str text => text
  | other => other.shown

def shownTexts (texts : List String) : String :=
  (Value.list (texts.map .str)).shown

end LanguageBridge
