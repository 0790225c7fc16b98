import LanguageBridge.Protocol.Location

namespace LanguageBridge

/-! Symbols of a document, as a tree or as a flat list, and of a workspace. -/

structure DocumentSymbol where
  name : String
  kind : Value
  range : Range
  selectionRange : Range
  detail : Option String := none
  children : Option (List DocumentSymbol) := none
  rest : Fields := []
deriving Repr, Inhabited

structure SymbolInformation where
  name : String
  kind : Value
  location : Location
  containerName : Option String := none
  rest : Fields := []
deriving Repr, Inhabited

/-- Where a workspace symbol is: in a range, or in a document as a whole. -/
inductive SymbolPlace where
  | location (location : Location)
  | document (document : Identifier)
deriving Repr, Inhabited

structure WorkspaceSymbol where
  place : SymbolPlace
  rest : Fields := []
deriving Repr, Inhabited

namespace DocumentSymbol

def ofFields? (fields : Fields) (children : Option (List DocumentSymbol)) :
    Option DocumentSymbol :=
  match Fields.text? fields "name", Fields.get? fields "kind", Fields.range? fields "range",
    Fields.range? fields "selectionRange" with
  | some name, some kind, some range, some selectionRange =>
    let (detail, others) := Fields.take fields "detail" Value.text?
    some ⟨name, kind, range, selectionRange, detail, children,
      Fields.without others ["name", "kind", "range", "selectionRange", "children"]⟩
  | _, _, _, _ => none

mutual

def ofValue? : Value → Option DocumentSymbol
  | .record type fields =>
    if type = "DocumentSymbol" then
      match childrenIn? fields with
      | some children => ofFields? fields children
      | none => none
    else none
  | _ => none

/-- The children among the fields of a symbol. It need not have any, but all of them must be
symbols. -/
def childrenIn? : List (String × Value) → Option (Option (List DocumentSymbol))
  | [] => some none
  | (name, value) :: rest =>
    if name = "children" then (childrenOf? value).map some else childrenIn? rest

def childrenOf? : Value → Option (List DocumentSymbol)
  | .list items => listOf? items
  | _ => none

def listOf? : List Value → Option (List DocumentSymbol)
  | [] => some []
  | item :: rest =>
    match ofValue? item, listOf? rest with
    | some symbol, some symbols => some (symbol :: symbols)
    | _, _ => none

end

mutual

def toValue : DocumentSymbol → Value
  | ⟨name, kind, range, selectionRange, detail, children, rest⟩ =>
    .record "DocumentSymbol" ([("name", .str name), ("kind", kind), ("range", .range range),
      ("selectionRange", .range selectionRange)] ++
      Fields.optional "detail" (detail.map .str) ++ childrenField children ++ rest)

def childrenField : Option (List DocumentSymbol) → Fields
  | none => []
  | some children => [("children", .list (listValues children))]

def listValues : List DocumentSymbol → List Value
  | [] => []
  | symbol :: rest => symbol.toValue :: listValues rest

end

end DocumentSymbol

namespace SymbolInformation

def ofFields? (fields : Fields) : Option SymbolInformation :=
  match Fields.text? fields "name", Fields.get? fields "kind",
    (Fields.get? fields "location").bind Location.ofValue? with
  | some name, some kind, some location =>
    let (containerName, others) := Fields.take fields "containerName" Value.text?
    some ⟨name, kind, location, containerName,
      Fields.without others ["name", "kind", "location"]⟩
  | _, _, _ => none

def toValue (symbol : SymbolInformation) : Value :=
  .record "SymbolInformation" ([("name", .str symbol.name), ("kind", symbol.kind),
    ("location", symbol.location.toValue)] ++
    Fields.optional "containerName" (symbol.containerName.map .str) ++ symbol.rest)

end SymbolInformation

namespace SymbolPlace

def ofValue? (value : Value) : Option SymbolPlace :=
  match value with
  | .record "Location" _ => (Location.ofValue? value).map location
  | named => (Identifier.ofValue? named).map document

def toValue : SymbolPlace → Value
  | location place => place.toValue
  | document named => named.toValue

end SymbolPlace

namespace WorkspaceSymbol

def ofFields? (fields : Fields) : Option WorkspaceSymbol :=
  ((Fields.get? fields "location").bind SymbolPlace.ofValue?).map fun place =>
    ⟨place, Fields.without fields ["location"]⟩

def toValue (symbol : WorkspaceSymbol) : Value :=
  .record "WorkspaceSymbol" (("location", symbol.place.toValue) :: symbol.rest)

end WorkspaceSymbol

end LanguageBridge
