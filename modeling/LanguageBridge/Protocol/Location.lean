import LanguageBridge.Protocol.Value

namespace LanguageBridge

/-! Places in named documents. -/

structure Location where
  uri : String
  range : Range
deriving DecidableEq, Repr, Inhabited

/-- A place that an answer leads to, and the range in the asking document that leads there. -/
structure LocationLink where
  targetUri : String
  targetRange : Range
  targetSelectionRange : Range
  originSelectionRange : Option Range := none
deriving DecidableEq, Repr, Inhabited

/-- The name of a document, with a version or whatever else the protocol adds to it. -/
structure Identifier where
  type : String := "TextDocumentIdentifier"
  uri : String
  rest : Fields := []
deriving Repr, Inhabited

namespace Location

def ofValue? : Value → Option Location
  | .record "Location" fields =>
    match Fields.text? fields "uri", Fields.range? fields "range" with
    | some uri, some range => some ⟨uri, range⟩
    | _, _ => none
  | _ => none

def toValue (location : Location) : Value :=
  .record "Location" [("uri", .str location.uri), ("range", .range location.range)]

end Location

namespace LocationLink

def ofValue? : Value → Option LocationLink
  | .record "LocationLink" fields =>
    match Fields.text? fields "targetUri", Fields.range? fields "targetRange",
      Fields.range? fields "targetSelectionRange", Fields.get? fields "originSelectionRange" with
    | some uri, some range, some selection, none => some ⟨uri, range, selection, none⟩
    | some uri, some range, some selection, some (.range origin) =>
      some ⟨uri, range, selection, some origin⟩
    | _, _, _, _ => none
  | _ => none

def toValue (link : LocationLink) : Value :=
  .record "LocationLink" ([("targetUri", .str link.targetUri),
    ("targetRange", .range link.targetRange),
    ("targetSelectionRange", .range link.targetSelectionRange)] ++
    Fields.optional "originSelectionRange" (link.originSelectionRange.map .range))

end LocationLink

namespace Identifier

def ofValue? : Value → Option Identifier
  | .record type fields =>
    (Fields.text? fields "uri").map fun uri => ⟨type, uri, Fields.without fields ["uri"]⟩
  | _ => none

def toValue (identifier : Identifier) : Value :=
  .record identifier.type (("uri", .str identifier.uri) :: identifier.rest)

end Identifier

end LanguageBridge
