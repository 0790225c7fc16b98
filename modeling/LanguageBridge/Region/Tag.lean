import LanguageBridge.Region.Language
import LanguageBridge.Region.Malformed
import LanguageBridge.Text.Caseless
import LanguageBridge.Text.Word

namespace LanguageBridge

/-! Tags: a region of one fixed language between a line with an opening tag and a line with a
closing tag. A rule finds its tags by any two patterns; those below have no regard to case. -/

/-- What a pattern matches, as a regular expression does: how many characters at the head of a text,
if any match there. It may look at what stands before the text, the nearest character first. -/
structure TagPattern where
  length? : List Char → List Char → Option Nat
  fits : ∀ {before text length}, length? before text = some length → length ≤ text.length

namespace TagPattern

/-- How far behind the head of a text its first match ends. -/
def reach? (pattern : TagPattern) : List Char → List Char → Option Nat
  | before, [] => pattern.length? before []
  | before, c :: rest =>
    match pattern.length? before (c :: rest) with
    | some length => some length
    | none => (pattern.reach? (c :: before) rest).map (· + 1)

/-- Where the first match ends of those that begin at a column of the line or behind it. -/
def search? (pattern : TagPattern) (line : List Char) (column : Nat) : Option Nat :=
  (pattern.reach? (line.take column).reverse (line.drop column)).map (column + ·)

def occurs (pattern : TagPattern) (line : List Char) : Bool :=
  (pattern.search? line 0).isSome

/-- The pattern that drops something from the head of a text, whatever stands before it. -/
def ofDrop (drop? : List Char → Option (List Char)) : TagPattern where
  length? _ text := (drop? text).map fun after => text.length - after.length
  fits found := by
    obtain ⟨after, -, rfl⟩ := Option.map_eq_some_iff.mp found
    exact Nat.sub_le _ _

def literal (text : List Char) : TagPattern :=
  ofDrop (Text.dropCaseless? text)

def dropOpening? (name text : List Char) : Option (List Char) :=
  match Text.dropCaseless? ('<' :: name) text with
  | none => none
  | some rest =>
    if rest.head?.any Text.isWordCharacter then none
    else
      match rest.dropWhile (· ≠ '>') with
      | [] => none
      | _ :: after => some after

/-- An opening tag of this name, with whatever attributes, up to its closing bracket. -/
def opening (name : List Char) : TagPattern :=
  ofDrop (dropOpening? name)

def dropClosing? (name text : List Char) : Option (List Char) :=
  match Text.dropCaseless? ('<' :: '/' :: name) text with
  | none => none
  | some rest =>
    match Text.trimLeft rest with
    | '>' :: after => some after
    | _ => none

/-- A closing tag of this name, with blanks before its closing bracket. -/
def closing (name : List Char) : TagPattern :=
  ofDrop (dropClosing? name)

end TagPattern

structure TagRule where
  language : String
  start : TagPattern
  stop : TagPattern

namespace TagRule

def script : TagRule :=
  ⟨"javascript", .opening "script".toList, .closing "script".toList⟩

def style : TagRule :=
  ⟨"css", .opening "style".toList, .closing "style".toList⟩

/-- A line whose opening tag is not closed again behind it. -/
def opensAfter (rule : TagRule) (line : List Char) : Bool :=
  match rule.start.search? line 0 with
  | none => false
  | some column => (rule.stop.search? line column).isNone

/-- Reads the lines from number `index` on; an element may be open since a line. -/
def scanFrom (rule : TagRule) (language : String) (index : Nat) (openedAt : Option Nat) :
    List (List Char) → Findings
  | [] =>
    match openedAt with
    | none => {}
    | some opened => { malformed := [⟨opened, "unclosed tag", some language⟩] }
  | line :: rest =>
    match openedAt with
    | none =>
      if rule.start.occurs line then
        let opened := if rule.opensAfter line then some index else none
        rule.scanFrom language (index + 1) opened rest
      else
        let later := rule.scanFrom language (index + 1) none rest
        if rule.stop.occurs line then
          { later with malformed :=
              ⟨index, "closing tag without opening tag", some language⟩ :: later.malformed }
        else
          later
    | some opened =>
      if rule.stop.occurs line then
        let later := rule.scanFrom language (index + 1) none rest
        if 1 < index - opened then
          { later with regions :=
              ⟨language, opened + 1, (index : Int) - 1, opened⟩ :: later.regions }
        else
          later
      else if rule.start.occurs line then
        let later := rule.scanFrom language (index + 1) (some index) rest
        { later with malformed :=
            ⟨opened, "nested opening tag", some language⟩ :: later.malformed }
      else
        rule.scanFrom language (index + 1) (some opened) rest

def scan (rule : TagRule) (names : LanguageNames) (lines : List (List Char)) : Findings :=
  rule.scanFrom (names.resolve rule.language.toList) 0 none lines

end TagRule

end LanguageBridge
