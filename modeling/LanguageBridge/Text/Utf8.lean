namespace LanguageBridge.Text

/-! Reading bytes as UTF-8 when some of them may be wrong: the longest beginning of a character
that breaks off is replaced as a whole, and so is every byte that can begin nothing. -/

def replacementCharacter : Char :=
  Char.ofNat 0xFFFD

/-- A character of which some bytes are still to come; the next one must lie in a range. -/
structure PartialCharacter where
  missing : Nat
  code : Nat
  low : Nat := 0x80
  high : Nat := 0xBF
deriving DecidableEq, Repr

def beginCharacter (byte : Nat) : List Char × Option PartialCharacter :=
  if byte < 0x80 then ([Char.ofNat byte], none)
  else if byte < 0xC2 then ([replacementCharacter], none)
  else if byte < 0xE0 then ([], some { missing := 1, code := byte - 0xC0 })
  else if byte = 0xE0 then ([], some { missing := 2, code := 0, low := 0xA0 })
  else if byte = 0xED then ([], some { missing := 2, code := 0xD, high := 0x9F })
  else if byte < 0xF0 then ([], some { missing := 2, code := byte - 0xE0 })
  else if byte = 0xF0 then ([], some { missing := 3, code := 0, low := 0x90 })
  else if byte < 0xF4 then ([], some { missing := 3, code := byte - 0xF0 })
  else if byte = 0xF4 then ([], some { missing := 3, code := 4, high := 0x8F })
  else ([replacementCharacter], none)

def continueCharacter (begun : Option PartialCharacter) (byte : Nat) :
    List Char × Option PartialCharacter :=
  match begun with
  | none => beginCharacter byte
  | some part =>
    if part.low ≤ byte ∧ byte ≤ part.high then
      let code := part.code * 64 + byte % 64
      if part.missing ≤ 1 then ([Char.ofNat code], none)
      else ([], some { missing := part.missing - 1, code := code })
    else
      let fresh := beginCharacter byte
      (replacementCharacter :: fresh.1, fresh.2)

def decodeUtf8From (begun : Option PartialCharacter) : List UInt8 → List Char
  | [] => if begun.isSome then [replacementCharacter] else []
  | byte :: rest =>
    let next := continueCharacter begun byte.toNat
    next.1 ++ decodeUtf8From next.2 rest

def decodeUtf8 (bytes : List UInt8) : List Char :=
  decodeUtf8From none bytes

end LanguageBridge.Text
