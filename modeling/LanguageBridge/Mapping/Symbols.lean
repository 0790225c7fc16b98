import LanguageBridge.Mapping.Coordinates
import LanguageBridge.Protocol.Answer
import LanguageBridge.Routing.Context

namespace LanguageBridge

/-! Answers made of symbols, of one document or of the workspace, and the merging of the symbols
of several languages. -/

namespace Item

/-- Whether an item is a symbol of the workspace or has no place at all. -/
def isRegularSymbol : Item → Bool
  | symbolInformation _ => true
  | workspaceSymbol _ => true
  | item => (item.toValue.part "location").toOption.isNone

end Item

namespace Store

mutual

/-- A symbol with its children. A child that cannot be mapped is left out with all below it. -/
def mapSymbol (store : Store) (context : Context) : DocumentSymbol → Except Fault DocumentSymbol
  | ⟨name, kind, range, selectionRange, detail, children, rest⟩ =>
    match store.mapRange context.host context.language range with
    | .error fault => .error fault
    | .ok mapped =>
      match store.mapRange context.host context.language selectionRange with
      | .error fault => .error fault
      | .ok selected =>
        .ok ⟨name, kind, mapped, selected, detail, mapChildren store context children, rest⟩

def mapChildren (store : Store) (context : Context) :
    Option (List DocumentSymbol) → Option (List DocumentSymbol)
  | none => none
  | some children => some (mapSymbolList store context children)

def mapSymbolList (store : Store) (context : Context) : List DocumentSymbol → List DocumentSymbol
  | [] => []
  | symbol :: rest =>
    (mapSymbol store context symbol).toOption.toList ++ mapSymbolList store context rest

end

def mapSymbolItem (store : Store) (context : Context) (item : Item) : Except Fault Item :=
  match item with
  | .documentSymbol symbol => (store.mapSymbol context symbol).map .documentSymbol
  | .symbolInformation symbol =>
    (store.mapLocation symbol.location).map fun location =>
      .symbolInformation { symbol with location := location }
  | other => .ok other

def mapSymbols (store : Store) (context : Context) (answer : Answer) : Answer :=
  answer.restore (answer.items.filterMap fun item => (store.mapSymbolItem context item).toOption)

def mapWorkspaceSymbol (store : Store) (item : Item) : Except Fault Item :=
  match item with
  | .symbolInformation symbol =>
    (store.mapLocation symbol.location).map fun location =>
      .symbolInformation { symbol with location := location }
  | .workspaceSymbol symbol =>
    match symbol.place with
    | .location location =>
      (store.mapLocation location).map fun location =>
        .workspaceSymbol { symbol with place := .location location }
    | .document named =>
      .ok (.workspaceSymbol { symbol with
        place := .document { named with uri := Alias.hostOf named.uri } })
  | other => .ok other

/-- Symbols of the workspace need no context: each names its own document. -/
def mapWorkspaceSymbols (store : Store) (items : List Item) : List Item :=
  items.filterMap fun item => (store.mapWorkspaceSymbol item).toOption

/-! ### Data of any shape -/

mutual

def mapSymbolValue (store : Store) (context : Context) : Value → Except Fault Value
  | .record type fields => do
      let map := store.mapRangeValue context.host context.language
      let symbol := Value.record type fields
      let ranged ← symbol.changePart "range" map
      let selected ← ranged.changePart "selectionRange" map
      let _ ← symbol.part "children"
      let children ← mapChildrenIn store context fields
      .ok (selected.setPart "children" children)
  | other => .error (.missingPart other "range")

def mapChildrenIn (store : Store) (context : Context) :
    List (String × Value) → Except Fault Value
  | [] => .ok .null
  | (name, value) :: rest =>
    if name = "children" then mapChildrenValue store context value
    else mapChildrenIn store context rest

def mapChildrenValue (store : Store) (context : Context) : Value → Except Fault Value
  | .list items => (mapSymbolValues store context items).map .list
  | other =>
    match other.filledElements with
    | .error fault => .error fault
    | .ok [] => .ok other
    | .ok (child :: _) => .error (.missingPart child "range")

def mapSymbolValues (store : Store) (context : Context) : List Value → Except Fault (List Value)
  | [] => .ok []
  | child :: rest =>
    match mapSymbolValue store context child with
    | .ok mapped => (mapSymbolValues store context rest).map (mapped :: ·)
    | .error fault =>
      if fault.isUnmappable then
        match child.part "name" with
        | .error missing => .error missing
        | .ok _ => mapSymbolValues store context rest
      else
        .error fault

end

def mapSymbolItemValue (store : Store) (context : Context) (value : Value) : Except Fault Value :=
  match value with
  | .record "DocumentSymbol" _ => store.mapSymbolValue context value
  | .record "SymbolInformation" _ => value.changePart "location" store.mapPlaceValue
  | other => .ok other

/-- Whatever has a place may be a symbol of the workspace. -/
def mapWorkspaceSymbolValue (store : Store) (value : Value) : Except Fault Value :=
  match value.part "location" with
  | .error _ => .ok value
  | .ok .null => .ok value
  | .ok (.record "Location" _) => value.changePart "location" store.mapPlaceValue
  | .ok _ => value.changePart "location" fun place =>
    place.changePart "uri" fun uri => .ok (Alias.hostOfValue uri)

def bringSymbolsBack (store : Store) (answer : Answer) : Except Fault (List Item) := do
  let items ← answer.elements
  if items.all Item.isRegularSymbol then .ok (store.mapWorkspaceSymbols items)
  else
    let kept ← keepMapped store.mapWorkspaceSymbolValue (some "name") (items.map Item.toValue)
    .ok (kept.map Item.ofValue)

end Store

def SymbolInformation.toDocumentSymbol (symbol : SymbolInformation) : DocumentSymbol :=
  { name := symbol.name
    kind := symbol.kind
    range := symbol.location.range
    selectionRange := symbol.location.range
    detail := symbol.containerName }

namespace Item

def isDocumentSymbol : Item → Bool
  | documentSymbol _ => true
  | other (.record "DocumentSymbol" _) => true
  | _ => false

def ofFlatSymbol? (symbol : Value) : Option Item :=
  (symbol.named "location").part "range" |>.toOption.map fun range =>
    .ofValue (.structured "DocumentSymbol"
      [("name", symbol.named "name"), ("kind", symbol.named "kind"), ("range", range),
       ("selectionRange", range), ("detail", symbol.named "containerName")])

/-- Flat symbols become symbols of a tree; nothing else changes. -/
def asDocumentSymbol : Item → Item
  | symbolInformation symbol => documentSymbol symbol.toDocumentSymbol
  | other (.record "SymbolInformation" fields) =>
    let symbol := Value.record "SymbolInformation" fields
    (ofFlatSymbol? symbol).getD (other symbol)
  | unchanged => unchanged

def range? : Item → Option Range
  | documentSymbol symbol => some symbol.range
  | item => (item.toValue.part "range").toOption.bind Value.range?

def placeRange? : Item → Option Range
  | symbolInformation symbol => some symbol.location.range
  | item =>
    (item.toValue.part "location").toOption.bind fun place =>
      (place.part "range").toOption.bind Value.range?

def position? : Item → Option Position
  | inlayHint hint => some hint.position
  | item => (item.toValue.part "position").toOption.bind Value.position?

def sortBy (start? : Item → Option Position) (part : String) (items : List Item) :
    Except Fault (List Item) :=
  match items.find? fun item => (start? item).isNone with
  | some item => .error (.missingPart item.toValue part)
  | none =>
    .ok (items.mergeSort fun a b => ((start? a).getD default).before ((start? b).getD default))

end Item

def allElements : List Answer → Except Fault (List Item)
  | [] => .ok []
  | answer :: rest =>
    match answer.filledElements, allElements rest with
    | .error fault, _ => .error fault
    | .ok _, .error fault => .error fault
    | .ok items, .ok others => .ok (items ++ others)

/-- Symbols of several languages in order. They are all of one kind: when one of them belongs to
a tree, the flat symbols are converted. -/
def orderSymbols (items : List Item) : Except Fault (List Item) :=
  if items.any Item.isDocumentSymbol then
    Item.sortBy (fun item => item.range?.map Range.start) "range" (items.map Item.asDocumentSymbol)
  else
    Item.sortBy (fun item => item.placeRange?.map Range.start) "location" items

def mergeSymbols (answers : List Answer) : Except Fault (List Item) :=
  match allElements answers with
  | .error fault => .error fault
  | .ok items => orderSymbols items

def mergeHints (answers : List Answer) : Except Fault (List Item) :=
  match allElements answers with
  | .error fault => .error fault
  | .ok items => Item.sortBy Item.position? "position" items

end LanguageBridge
