import LanguageBridge.Fault
import LanguageBridge.Text.Percent

namespace LanguageBridge

/-! Aliases: the identifiers under which child servers know synthetic documents. An alias holds
the host and the language, each percent-encoded, so that both can be read back. Every spelling
that differs in nothing but escapes is accepted; all else is the identifier of a real document.

Texts are strings of Unicode scalar values. A text with a lone surrogate, which cannot be encoded, is
outside the program but for the codec itself: `Alias.decodePoints` reads texts of any code points. -/

structure Alias where
  host : String
  language : String
deriving DecidableEq, Repr

namespace Alias

def scheme : String := "otter://"

/-- The alias text of a host and a language, both of which must be given. -/
def encode (host language : String) : Except Fault String :=
  if host = "" ∨ language = "" then .error .emptyAliasPart
  else .ok (scheme ++ Text.percentEncode host ++ "/" ++ Text.percentEncode language)

def dropExact? {α : Type} [DecidableEq α] : List α → List α → Option (List α)
  | [], text => some text
  | _ :: _, [] => none
  | e :: expected, c :: text => if e = c then dropExact? expected text else none

def parse? (uri : String) : Option Alias :=
  match dropExact? scheme.toList uri.toList with
  | none => none
  | some body =>
    let hostPart := body.takeWhile (· ≠ '/')
    match body.dropWhile (· ≠ '/') with
    | [] => none
    | _ :: languagePart =>
      if hostPart = [] ∨ languagePart = [] then none
      else
        match Text.spelledText? hostPart, Text.spelledText? languagePart with
        | some host, some language => some ⟨host, language⟩
        | _, _ => none

def parse (candidate : Value) : Except Fault Alias :=
  match candidate with
  | .str uri =>
    match parse? uri with
    | some found => .ok found
    | none => .error (.notAnAlias candidate)
  | _ => .error (.notAnAlias candidate)

def isAlias (uri : String) : Bool :=
  (parse? uri).isSome

/-- The host behind an identifier; the identifier of a real document is its own host. -/
def hostOf (uri : String) : String :=
  match parse? uri with
  | some found => found.host
  | none => uri

def hostOfValue : Value → Value
  | .str uri => .str (hostOf uri)
  | other => other

end Alias

end LanguageBridge
