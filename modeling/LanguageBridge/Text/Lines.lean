namespace LanguageBridge.Text

/-! Lines end at a line feed, at a carriage return, or at the two in that order, which count as
one end. No other character ends a line, and a text always has a last line, be it empty. -/

def extendFirst (c : Char) : List (List Char) → List (List Char)
  | [] => [[c]]
  | line :: rest => (c :: line) :: rest

def splitCharacters : List Char → List (List Char)
  | [] => [[]]
  | '\r' :: '\n' :: rest => [] :: splitCharacters rest
  | c :: rest =>
    if c = '\r' ∨ c = '\n' then [] :: splitCharacters rest
    else extendFirst c (splitCharacters rest)

def splitLines (text : String) : List String :=
  (splitCharacters text.toList).map String.ofList

def joinLines (lines : List String) : String :=
  "\n".intercalate lines

def lineFeeds (text : String) : Nat :=
  text.toList.count '\n'

end LanguageBridge.Text
