namespace LanguageBridge.Url

/-! Numeric addresses of hosts: four bytes in decimal, or eight groups in hexadecimal, of which one
run of zeros may be left out. -/

def isByte (text : String) : Bool :=
  let digits := text.toList
  digits ≠ [] && digits.all Char.isDigit && digits.length ≤ 3 &&
    (text = "0" || digits.head? ≠ some '0') && text.toNat?.getD 256 ≤ 255

def isFourBytes (text : String) : Bool :=
  let parts := text.splitOn "."
  parts.length = 4 && parts.all isByte

def isHexDigit (c : Char) : Bool :=
  c.isDigit || ('a' ≤ c && c ≤ 'f') || ('A' ≤ c && c ≤ 'F')

def isGroup (text : String) : Bool :=
  let digits := text.toList
  digits ≠ [] && digits.all isHexDigit && digits.length ≤ 4

/-- The last two groups may be written as four bytes. -/
def spellOutBytes? (parts : List String) : Option (List String) :=
  let last := parts.getLast?.getD ""
  if last.toList.contains '.' then
    if isFourBytes last then some (parts.dropLast ++ ["0", "0"]) else none
  else
    some parts

/-- The groups on one side of the gap; `outer` is the one at the end of the address, which is empty
only if there is no other. -/
def sideOfGap? (outer : Option String) (side : List String) : Option (List String) :=
  if outer = some "" then (if side = [""] then some [] else none) else some side

/-- Eight groups, or fewer around a gap that stands for at least one. -/
def areGroups (parts : List String) : Bool :=
  let inner := (parts.drop 1).dropLast
  match inner.count "" with
  | 0 => parts.length = 8 && parts.all isGroup
  | 1 =>
    let place := inner.idxOf "" + 1
    match sideOfGap? parts.head? (parts.take place),
      sideOfGap? parts.getLast? (parts.drop (place + 1)) with
    | some before, some after =>
      before.length + after.length ≤ 7 && before.all isGroup && after.all isGroup
    | _, _ => false
  | _ => false

def isEightGroups (text : String) : Bool :=
  let parts := text.splitOn ":"
  3 ≤ parts.length &&
    match spellOutBytes? parts with
    | some groups => groups.length ≤ 9 && areGroups groups
    | none => false

/-- Eight groups, perhaps followed by a percent sign and the name of a zone. -/
def isZonedGroups (text : String) : Bool :=
  match text.splitOn "%" with
  | [address] => isEightGroups address
  | [address, zone] => zone ≠ "" && isEightGroups address
  | _ => false

def isLaterAddress (text : List Char) : Bool :=
  match text with
  | 'v' :: rest =>
    match rest.dropWhile isHexDigit with
    | '.' :: _ :: _ => rest.head?.any isHexDigit
    | _ => false
  | _ => false

end LanguageBridge.Url
