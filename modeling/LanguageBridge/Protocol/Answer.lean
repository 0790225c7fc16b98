import LanguageBridge.Protocol.Completion
import LanguageBridge.Protocol.Hint
import LanguageBridge.Protocol.Part
import LanguageBridge.Protocol.Symbol

namespace LanguageBridge

/-! Answers to requests. An answer is nothing, one item, or a list of items; items that no rule
knows are carried along. -/

inductive Item where
  | location (location : Location)
  | locationLink (link : LocationLink)
  | documentSymbol (symbol : DocumentSymbol)
  | symbolInformation (symbol : SymbolInformation)
  | workspaceSymbol (symbol : WorkspaceSymbol)
  | workspaceEdit (edit : WorkspaceEdit)
  | range (range : Range)
  | renamePlaceholder (placeholder : RenamePlaceholder)
  | completionItem (item : CompletionItem)
  | completionList (list : CompletionList)
  | hover (hover : Hover)
  | inlayHint (hint : InlayHint)
  | other (value : Value)
deriving Repr, Inhabited

inductive Answer where
  | null
  | one (item : Item)
  | many (items : List Item)
deriving Repr, Inhabited

namespace Answer

def items : Answer → List Item
  | null => []
  | one item => [item]
  | many items => items

/-- Items in the shape of the answer they come from: a list stays one, and a single item that
is gone leaves nothing. -/
def restore (shape : Answer) (items : List Item) : Answer :=
  match shape, items with
  | many _, items => many items
  | _, [] => null
  | _, item :: _ => one item

end Answer

namespace Item

def kinds : List String :=
  ["Location", "LocationLink", "DocumentSymbol", "SymbolInformation", "WorkspaceSymbol",
   "WorkspaceEdit", "PrepareRenamePlaceholder", "CompletionItem", "CompletionList", "Hover",
   "InlayHint"]

def ofValue? (value : Value) : Option Item :=
  match value with
  | .range span => some (range span)
  | .record "Location" _ => (Location.ofValue? value).map location
  | .record "LocationLink" _ => (LocationLink.ofValue? value).map locationLink
  | .record "DocumentSymbol" _ => (DocumentSymbol.ofValue? value).map documentSymbol
  | .record "SymbolInformation" fields =>
    (SymbolInformation.ofFields? fields).map symbolInformation
  | .record "WorkspaceSymbol" fields => (WorkspaceSymbol.ofFields? fields).map workspaceSymbol
  | .record "WorkspaceEdit" fields => (WorkspaceEdit.ofFields? fields).map workspaceEdit
  | .record "PrepareRenamePlaceholder" fields =>
    (RenamePlaceholder.ofFields? fields).map renamePlaceholder
  | .record "CompletionItem" _ => (CompletionItem.regular? value).map completionItem
  | .record "CompletionList" fields => (CompletionList.ofFields? fields).map completionList
  | .record "Hover" fields => (Hover.ofFields? fields).map hover
  | .record "InlayHint" fields => (InlayHint.ofFields? fields).map inlayHint
  | _ => none

def ofValue (value : Value) : Item :=
  (ofValue? value).getD (other value)

/-- Whether the rules know what they see: an item that looks like one of theirs is one. -/
def isRegular : Item → Bool
  | other (.record type _) => type ∉ kinds
  | _ => true

def toValue : Item → Value
  | location place => place.toValue
  | locationLink link => link.toValue
  | documentSymbol symbol => symbol.toValue
  | symbolInformation symbol => symbol.toValue
  | workspaceSymbol symbol => symbol.toValue
  | workspaceEdit edit => edit.toValue
  | range span => .range span
  | renamePlaceholder placeholder => placeholder.toValue
  | completionItem item => item.toValue
  | completionList list => list.toValue
  | hover shown => shown.toValue
  | inlayHint hint => hint.toValue
  | other value => value

end Item

namespace Answer

def ofValue : Value → Answer
  | .null => null
  | .list items => many (items.map Item.ofValue)
  | value => one (Item.ofValue value)

def toValue : Answer → Value
  | null => .null
  | one item => item.toValue
  | many items => .list (items.map Item.toValue)

def elements : Answer → Except Fault (List Item)
  | null => .ok []
  | many items => .ok items
  | one item => item.toValue.elements.map fun parts => parts.map Item.ofValue

def filledElements : Answer → Except Fault (List Item)
  | one item => if item.toValue.isFilled then (one item).elements else .ok []
  | answer => answer.elements

end Answer

end LanguageBridge
