import LanguageBridge.Protocol.Edit

namespace LanguageBridge

/-! What is shown beside or above the text: hovers, inlay hints, rename proposals. -/

structure Hover where
  range : Option Range := none
  rest : Fields := []
deriving Repr, Inhabited

structure LabelPart where
  location : Option Location := none
  rest : Fields := []
deriving Repr, Inhabited

inductive HintLabel where
  | parts (parts : List LabelPart)
  | other (value : Value)
deriving Repr, Inhabited

structure InlayHint where
  position : Position
  label : HintLabel
  edits : Option (List TextEdit) := none
  rest : Fields := []
deriving Repr, Inhabited

/-- The range that a rename would replace, with a proposal for the new name. -/
structure RenamePlaceholder where
  range : Range
  rest : Fields := []
deriving Repr, Inhabited

namespace Hover

def ofFields? (fields : Fields) : Option Hover :=
  (Fields.maybe? fields "range" Value.range?).map fun range =>
    ⟨range, Fields.without fields ["range"]⟩

def toValue (hover : Hover) : Value :=
  .record "Hover" (Fields.optional "range" (hover.range.map .range) ++ hover.rest)

end Hover

namespace LabelPart

def ofValue? : Value → Option LabelPart
  | .record "InlayHintLabelPart" fields =>
    (Fields.maybe? fields "location" Location.ofValue?).map fun location =>
      ⟨location, Fields.without fields ["location"]⟩
  | _ => none

def toValue (part : LabelPart) : Value :=
  .record "InlayHintLabelPart"
    (Fields.optional "location" (part.location.map Location.toValue) ++ part.rest)

end LabelPart

namespace HintLabel

def ofValue? (value : Value) : Option HintLabel :=
  match value with
  | .list items => (items.mapM LabelPart.ofValue?).map parts
  | whole => some (other whole)

def toValue : HintLabel → Value
  | parts items => .list (items.map LabelPart.toValue)
  | other value => value

end HintLabel

namespace InlayHint

def ofFields? (fields : Fields) : Option InlayHint :=
  match (Fields.get? fields "position").bind Value.position?,
    (Fields.get? fields "label").bind HintLabel.ofValue?,
    Fields.maybe? fields "textEdits" TextEdit.list? with
  | some position, some label, some edits =>
    some ⟨position, label, edits, Fields.without fields ["position", "label", "textEdits"]⟩
  | _, _, _ => none

def toValue (hint : InlayHint) : Value :=
  .record "InlayHint" ([("position", .position hint.position), ("label", hint.label.toValue)] ++
    Fields.optional "textEdits" (hint.edits.map TextEdit.listValue) ++ hint.rest)

end InlayHint

namespace RenamePlaceholder

def ofFields? (fields : Fields) : Option RenamePlaceholder :=
  (Fields.range? fields "range").map fun range => ⟨range, Fields.without fields ["range"]⟩

def toValue (placeholder : RenamePlaceholder) : Value :=
  .record "PrepareRenamePlaceholder" (("range", .range placeholder.range) :: placeholder.rest)

end RenamePlaceholder

end LanguageBridge
