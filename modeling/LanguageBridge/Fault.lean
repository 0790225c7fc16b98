import LanguageBridge.Text.Quoted

namespace LanguageBridge

/-! Everything that can go wrong, by cause. -/

inductive Fault where
  | notAnAlias (candidate : Value)
  /-- A synthetic line lies in no chunk. -/
  | positionOutOfRange (language : String) (line : Int)
  /-- A host line lies in no chunk of the language. -/
  | noSyntheticRegion (language : Option String) (line : Int)
  /-- An alias needs a host and a language. -/
  | emptyAliasPart
  | unknownPadding (name : String)
  | unsupportedMethod (name : String)
  | relativeRoot
  | unclosedQuotation
  | danglingEscape
  | positionBounds (field : Position.Field) (number : Int)
  | versionBounds (type : String) (number : Int)
  | unknownHost (uri : String)
  | unknownRequest (id : Int)
  | child (text : String)
  | cancelled
  /-- The client of a child server was let go while it was needed. -/
  | clientGone (call : String)
  /-- No child server of the language has ever had a client. -/
  | unknownClient (language : String)
  | unhandled (method : String)
  | missingPart (owner : Value) (part : String)
  | notAList (answer : Value)
  | notAnOperation (value : Value)
  | unknownPart (owner : Value) (part : String)
  | notAStructure (value : Value)
  | unstructurable (type : String) (value : Value)
  | notAKey (value : Value)
  | notAText (value : Value)
  /-- Child servers came or went while all were being stopped. -/
  | serversChanged
  /-- The host of a URL has one bracket without the other, or more around them than a port. -/
  | misplacedBrackets
  | notAnAddress (host : String)
  /-- An address of four bytes takes no brackets. -/
  | bracketedBytes
  | laterAddress
  /-- The host of a URL has a character that may be taken for a mark of the URL. -/
  | misleadingHost (host : String)
deriving Repr, Inhabited

def Position.Field.word : Position.Field → String
  | .line => "line"
  | .character => "character"

/-- How messages name the type of data. -/
def Value.typeWord : Value → String
  | .null => "NoneType"
  | .bool _ => "bool"
  | .int _ => "int"
  | .str _ => "str"
  | .list _ => "list"
  | .map _ => "dict"
  | .position _ => "Position"
  | .range _ => "Range"
  | .record type _ => type

/-- How messages spell the name of a part: its words are set apart by underscores. -/
def spelledPart (name : String) : String :=
  String.ofList (name.toList.flatMap fun c => if c.isUpper then ['_', c.toLower] else [c])

def missingPartText (owner : Value) (part : String) : String :=
  "'" ++ owner.typeWord ++ "' object has no attribute '" ++ spelledPart part ++ "'"

def versionRange : Int × Int := (-2147483648, 2147483647)

def Fault.message : Fault → String
  | .notAnAlias candidate => "not a synthetic alias: " ++ candidate.shown
  | .positionOutOfRange language line =>
    "synthetic line " ++ toString line ++ " of '" ++ language ++ "' is not inside a chunk"
  | .noSyntheticRegion language line =>
    "host line " ++ toString line ++ " is not covered by " ++
      match language with
      | some name => if name = "" then "any language" else "'" ++ name ++ "'"
      | none => "any language"
  | .emptyAliasPart => "host uri and language must be non-empty"
  | .unknownPadding name =>
    "unknown padding '" ++ name ++ "', expected one of ('compact', 'preserve')"
  | .unsupportedMethod name => "unsupported method: " ++ name
  | .relativeRoot => "relative path can't be expressed as a file URI"
  | .unclosedQuotation => "No closing quotation"
  | .danglingEscape => "No escaped character"
  | .positionBounds field number =>
    "Position." ++ field.word ++ " should be in range [0:" ++ toString Position.limit ++
      "], but was " ++ toString number ++ "."
  | .versionBounds type number =>
    type ++ ".version should be in range [" ++ toString versionRange.1 ++ ":" ++
      toString versionRange.2 ++ "], but was " ++ toString number ++ "."
  | .unknownHost uri => Text.quoted uri
  | .unknownRequest id => toString id
  | .child text => text
  | .cancelled => ""
  | .clientGone call => missingPartText .null call
  | .unknownClient language => Text.quoted language
  | .unhandled method => Text.quoted method
  | .missingPart owner part => missingPartText owner part
  | .notAList answer => "'" ++ answer.typeWord ++ "' object is not iterable"
  | .notAnOperation value => "'" ++ value.typeWord ++ "' object is not callable"
  | .unknownPart owner part => owner.typeWord ++ " has no part '" ++ part ++ "'"
  | .notAStructure value => "<class '" ++ value.typeWord ++ "'> is not an attrs-decorated class."
  | .unstructurable type value => value.shown ++ " does not make a " ++ type
  | .notAKey value => value.shown ++ " is not a key"
  | .notAText value => value.shown ++ " is not a text"
  | .serversChanged => "dictionary changed size during iteration"
  | .misplacedBrackets => "Invalid IPv6 URL"
  | .notAnAddress host => Text.quoted host ++ " does not appear to be an IPv4 or IPv6 address"
  | .bracketedBytes => "An IPv4 address cannot be in brackets"
  | .laterAddress => "IPvFuture address is invalid"
  | .misleadingHost host =>
    "netloc '" ++ host ++ "' contains invalid characters under NFKC normalization"

/-- Whether a place has no counterpart. That costs the item it is in, not the answer. -/
def Fault.isUnmappable : Fault → Bool
  | .notAnAlias _ => true
  | .positionOutOfRange _ _ => true
  | .noSyntheticRegion _ _ => true
  | _ => false

def Position.checked (position : Position) : Except Fault Position :=
  match position.outOfBounds? with
  | some (field, number) => .error (.positionBounds field number)
  | none => .ok position

end LanguageBridge
