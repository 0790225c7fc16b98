import LanguageBridge.Text.CaseTable

namespace LanguageBridge.Text

/-! Lower-casing of whole texts. Two characters need more than the one-for-one table: the
dotted capital I becomes two characters, and a capital sigma at the end of a word becomes the
final form. -/

def CaseRun.image? (run : CaseRun) (code : Nat) : Option Nat :=
  if run.first ≤ code ∧ code ≤ run.last ∧ (code - run.first) % run.step = 0 then
    some (run.target + (code - run.first))
  else
    none

/-- One-for-one lower-casing; the dotted capital I goes to the plain letter. -/
def lowerCharacter (c : Char) : Char :=
  if c.toNat < 0x80 then
    c.toLower
  else if c = 'İ' then
    'i'
  else
    match caseRuns.findSome? (·.image? c.toNat) with
    | some code => Char.ofNat code
    | none => c

def combiningDotAbove : Char :=
  Char.ofNat 0x307

/-- Whether the nearest character that is not passed over has case. -/
def facesCased (neighbours : List Char) : Bool :=
  match neighbours.dropWhile caseIgnorableCodePoints.contains with
  | [] => false
  | c :: _ => casedCodePoints.contains c

/-- Lower-cases the text that follows `before`, which is held in reverse. -/
def lowercaseAfter (before : List Char) : List Char → List Char
  | [] => []
  | 'Σ' :: rest =>
    (if facesCased before && !facesCased rest then 'ς' else 'σ') ::
      lowercaseAfter ('Σ' :: before) rest
  | 'İ' :: rest => 'i' :: combiningDotAbove :: lowercaseAfter ('İ' :: before) rest
  | c :: rest => lowerCharacter c :: lowercaseAfter (c :: before) rest

def lowercase (text : List Char) : List Char :=
  lowercaseAfter [] text

end LanguageBridge.Text
