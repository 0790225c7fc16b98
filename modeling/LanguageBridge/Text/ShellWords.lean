import LanguageBridge.Fault

namespace LanguageBridge.Text

/-! Command lines cut into words. Blanks part words, quotes hold them together, and a backslash
takes the next character as it is; between double quotes it does so only before a double quote or
another backslash. -/

def isShellBlank (c : Char) : Bool :=
  c = ' ' || c = '\t' || c = '\r' || c = '\n'

inductive ShellState where
  | between
  | inWord
  | inQuotes (mark : Char)
  | escaping (quoted : Bool)
deriving DecidableEq, Repr

def shellQuote? (c : Char) : Option ShellState :=
  if c = '\'' ∨ c = '"' then some (.inQuotes c) else none

def shellWordsFrom (state : ShellState) (word : List Char) :
    List Char → Except Fault (List (List Char))
  | [] =>
    match state with
    | .between => .ok []
    | .inWord => .ok [word.reverse]
    | .inQuotes _ => .error .unclosedQuotation
    | .escaping _ => .error .danglingEscape
  | c :: rest =>
    match state with
    | .between =>
      if isShellBlank c then shellWordsFrom .between [] rest
      else if c = '\\' then shellWordsFrom (.escaping false) [] rest
      else
        match shellQuote? c with
        | some quotes => shellWordsFrom quotes [] rest
        | none => shellWordsFrom .inWord [c] rest
    | .inWord =>
      if isShellBlank c then
        (shellWordsFrom .between [] rest).map (word.reverse :: ·)
      else if c = '\\' then shellWordsFrom (.escaping false) word rest
      else
        match shellQuote? c with
        | some quotes => shellWordsFrom quotes word rest
        | none => shellWordsFrom .inWord (c :: word) rest
    | .inQuotes mark =>
      if c = mark then shellWordsFrom .inWord word rest
      else if c = '\\' ∧ mark = '"' then shellWordsFrom (.escaping true) word rest
      else shellWordsFrom (.inQuotes mark) (c :: word) rest
    | .escaping true =>
      let kept := if c = '"' ∨ c = '\\' then c :: word else c :: '\\' :: word
      shellWordsFrom (.inQuotes '"') kept rest
    | .escaping false => shellWordsFrom .inWord (c :: word) rest

def shellWords (text : String) : Except Fault (List String) :=
  (shellWordsFrom .between [] text.toList).map fun words => words.map String.ofList

end LanguageBridge.Text
