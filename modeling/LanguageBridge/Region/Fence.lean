import LanguageBridge.Region.Language
import LanguageBridge.Region.Malformed

namespace LanguageBridge

/-! Code fences: a line of three or more backticks or tildes opens a region, and the next bare
line of at least as many of the same closes it. The opening line may name a language. -/

structure Fence where
  mark : Char
  length : Nat
deriving DecidableEq, Repr, Inhabited

namespace Fence

/-- A line that starts like a fence: at most three spaces, the run of marks, and the rest. -/
def parse? (line : List Char) : Option (Fence × List Char) :=
  let indent := line.takeWhile (· = ' ')
  match line.dropWhile (· = ' ') with
  | [] => none
  | mark :: rest =>
    let length := 1 + (rest.takeWhile (· = mark)).length
    if indent.length ≤ 3 ∧ (mark = '`' ∨ mark = '~') ∧ 3 ≤ length then
      some (⟨mark, length⟩, rest.dropWhile (· = mark))
    else
      none

/-- An opening line and its info text. Backticks after backticks are a code span, not a fence. -/
def opening? (line : List Char) : Option (Fence × List Char) :=
  match parse? line with
  | none => none
  | some (fence, rest) =>
    let info := Text.trim rest
    if fence.mark = '`' ∧ '`' ∈ info then none else some (fence, info)

def closing? (line : List Char) : Option Fence :=
  match parse? line with
  | none => none
  | some (fence, rest) => if rest.all Text.isBlank then some fence else none

def closes (closer opener : Fence) : Bool :=
  closer.mark = opener.mark && opener.length ≤ closer.length

/-- The name in an info text: in braces, an optional dot and all up to a blank, a comma or the
closing brace; otherwise the first word without its leading dots. -/
def infoName (info : List Char) : List Char :=
  match Text.trim info with
  | [] => []
  | '{' :: rest =>
    let body := Text.trimLeft rest
    let name := if body.head? = some '.' then body.tail else body
    name.takeWhile fun c => !(Text.isBlank c || c = ',' || c = '}')
  | plain => (Text.firstWord plain).dropWhile (· = '.')

def languageOf (names : LanguageNames) (info : List Char) : Option String :=
  match infoName info with
  | [] => none
  | name => some (names.resolve name)

structure Open where
  marker : Nat
  fence : Fence
  language : Option String
deriving DecidableEq, Repr

def Open.region? (current : Open) (closer : Nat) : Option Region :=
  match current.language with
  | some language =>
    if 1 < closer - current.marker then
      some ⟨language, current.marker + 1, (closer : Int) - 1, current.marker⟩
    else
      none
  | none => none

/-- Reads the lines from number `index` on; a fence may be open. -/
def scanFrom (names : LanguageNames) (index : Nat) (current : Option Open) :
    List (List Char) → Findings
  | [] =>
    match current with
    | none => {}
    | some fence => { malformed := [⟨fence.marker, "unclosed code fence", fence.language⟩] }
  | line :: rest =>
    match current with
    | none =>
      match opening? line with
      | none => scanFrom names (index + 1) none rest
      | some (fence, info) =>
        scanFrom names (index + 1) (some ⟨index, fence, languageOf names info⟩) rest
    | some opened =>
      match closing? line with
      | none => scanFrom names (index + 1) current rest
      | some closer =>
        if closer.closes opened.fence then
          let later := scanFrom names (index + 1) none rest
          { later with regions := (opened.region? index).toList ++ later.regions }
        else
          scanFrom names (index + 1) current rest

def scan (names : LanguageNames) (lines : List (List Char)) : Findings :=
  scanFrom names 0 none lines

end Fence

end LanguageBridge
