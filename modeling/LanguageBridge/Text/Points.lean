import LanguageBridge.Text.Quoted

namespace LanguageBridge.Text

/-! Texts as sequences of code points. Among them may be surrogates, which are halves of pairs and
no characters. A text with surrogates has no bytes. -/

inductive CodePoint where
  | char (c : Char)
  /-- So many code points behind `0xD800`. -/
  | surrogate (index : Fin 0x800)
deriving DecidableEq, Repr

def CodePoint.char? : CodePoint → Option Char
  | .char c => some c
  | .surrogate _ => none

def chars (text : List Char) : List CodePoint :=
  text.map .char

def points (text : String) : List CodePoint :=
  chars text.toList

/-- The characters of a text without surrogates. -/
def chars? : List CodePoint → Option (List Char)
  | [] => some []
  | .char c :: rest => (chars? rest).map (c :: ·)
  | .surrogate _ :: _ => none

/-- Rewrites every run of characters, the first of which has begun already. Surrogates stay. -/
def mapRuns (rewrite : List Char → List Char) (begun : List Char) : List CodePoint → List CodePoint
  | [] => chars (rewrite begun)
  | .char c :: rest => mapRuns rewrite (begun ++ [c]) rest
  | .surrogate index :: rest =>
    chars (rewrite begun) ++ .surrogate index :: mapRuns rewrite [] rest

def escapeSurrogate (index : Fin 0x800) : List Char :=
  '\\' :: 'u' :: hexDigits 4 (0xD800 + index)

def escapePoint (mark : Char) : CodePoint → List Char
  | .char c => escapeCharacter mark c
  | .surrogate index => escapeSurrogate index

def quotedPoints (text : List CodePoint) : String :=
  let mark := quoteMark (text.filterMap CodePoint.char?)
  String.ofList (mark :: text.flatMap (escapePoint mark) ++ [mark])

/-- What is said of a text that has no bytes: where the first surrogates stand in it. -/
def surrogatesMessage (text : List CodePoint) : String :=
  let start := (text.takeWhile (·.char?.isSome)).length
  let place := match (text.drop start).takeWhile (·.char?.isNone) with
    | [.surrogate index] =>
      "character '" ++ String.ofList (escapeSurrogate index) ++ "' in position " ++ toString start
    | several => "characters in position " ++ toString start ++ "-" ++
        toString (start + several.length - 1)
  "'utf-8' codec can't encode " ++ place ++ ": surrogates not allowed"

end LanguageBridge.Text
