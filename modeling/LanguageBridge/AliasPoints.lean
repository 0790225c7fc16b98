import LanguageBridge.Alias
import LanguageBridge.Text.Points

namespace LanguageBridge.Alias

open Text

/-! Aliases among texts of any code points. The parts of a text are decoded, with replacements where
they are no UTF-8, and have to encode to the same text up to the spelling of escapes. What has a
surrogate in it cannot be encoded at all. -/

inductive Refusal where
  | notAnAlias (text : List CodePoint)
  | emptyPart
  | unencodable (text : List CodePoint)
deriving DecidableEq, Repr

def Refusal.message : Refusal → String
  | .notAnAlias text => "not a synthetic alias: " ++ quotedPoints text
  | .emptyPart => Fault.emptyAliasPart.message
  | .unencodable text => surrogatesMessage text

def percentEncodePoints (text : List CodePoint) : Except Refusal String :=
  match chars? text with
  | some plain => .ok (percentEncode (String.ofList plain))
  | none => .error (.unencodable text)

def encodePoints (host language : List CodePoint) : Except Refusal (List CodePoint) :=
  if host = [] ∨ language = [] then .error .emptyPart
  else do
    let hostPart ← percentEncodePoints host
    let languagePart ← percentEncodePoints language
    .ok (points (scheme ++ hostPart ++ "/" ++ languagePart))

def unescape (text : List CodePoint) : List CodePoint :=
  mapRuns (fun run => (percentDecode (String.ofList run)).toList) [] text

/-- The host and the language that a text is an alias of. -/
def decodePoints (uri : List CodePoint) : Except Refusal (List CodePoint × List CodePoint) :=
  match dropExact? (points scheme) uri with
  | none => .error (.notAnAlias uri)
  | some body =>
    let hostPart := body.takeWhile (· ≠ .char '/')
    match body.dropWhile (· ≠ .char '/') with
    | [] => .error (.notAnAlias uri)
    | _ :: languagePart =>
      if hostPart = [] ∨ languagePart = [] ∨ .char '/' ∈ languagePart then
        .error (.notAnAlias uri)
      else do
        let encoded ← encodePoints (unescape hostPart) (unescape languagePart)
        if encoded = points scheme ++ mapRuns normalizeEscapes [] body then
          .ok (unescape hostPart, unescape languagePart)
        else .error (.notAnAlias uri)

/-- The host behind an identifier, unless it cannot be told whether it is an alias. -/
def hostOfPoints (uri : List CodePoint) : Except Refusal (List CodePoint) :=
  match decodePoints uri with
  | .ok (host, _) => .ok host
  | .error (.notAnAlias _) => .ok uri
  | .error refusal => .error refusal

end LanguageBridge.Alias
