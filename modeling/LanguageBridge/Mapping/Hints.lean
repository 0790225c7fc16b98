import LanguageBridge.Mapping.Completions

namespace LanguageBridge

/-! Hovers and inlay hints. -/

namespace Store

/-- A hover is still of use without its range. -/
def mapHover (store : Store) (context : Context) (answer : Answer) : Answer :=
  match answer with
  | .one (.hover hover) =>
    .one (.hover { hover with
      range := hover.range.bind fun range =>
        (store.mapRange context.host context.language range).toOption })
  | other => other

def mapLabelPart (store : Store) (part : LabelPart) : Except Fault LabelPart :=
  (mapOptional store.mapLocation part.location).map fun location =>
    { part with location := location }

def mapLabelParts (store : Store) : List LabelPart → Except Fault (List LabelPart)
  | [] => .ok []
  | part :: rest =>
    match store.mapLabelPart part with
    | .error fault => .error fault
    | .ok mapped => (store.mapLabelParts rest).map (mapped :: ·)

def mapLabel (store : Store) (label : HintLabel) : Except Fault HintLabel :=
  match label with
  | .parts parts => (store.mapLabelParts parts).map .parts
  | .other value => .ok (.other value)

def mapHint (store : Store) (context : Context) (hint : InlayHint) : Except Fault InlayHint := do
  let position ← store.mapPosition context.host context.language hint.position
  let edits ← mapOptional (store.mapEdits context.host context.language) hint.edits
  let label ← store.mapLabel hint.label
  .ok { hint with position := position, edits := edits, label := label }

def wanted (context : Context) (position : Position) : Bool :=
  match context.hostRange.range? with
  | none => true
  | some range => range.covers position

def mapHintItem (store : Store) (context : Context) (item : Item) : Option Item :=
  match item with
  | .inlayHint hint =>
    match store.mapHint context hint with
    | .error _ => none
    | .ok mapped => if wanted context mapped.position then some (.inlayHint mapped) else none
  | other => some other

def mapHints (store : Store) (context : Context) (answer : Answer) : Answer :=
  .many (answer.items.filterMap (store.mapHintItem context))

/-! ### Data of any shape -/

def mapHoverValue (store : Store) (context : Context) (answer : Value) : Except Fault Value :=
  match answer with
  | .record "Hover" _ =>
    match answer.changePresentPart "range"
        (store.mapRangeValue context.host context.language) with
    | .ok mapped => .ok mapped
    | .error fault =>
      if fault.isUnmappable then .ok (answer.withoutPart "range") else .error fault
  | other => .ok other

def mapLabelValue (store : Store) (label : Value) : Except Fault Value :=
  match label with
  | .list _ =>
    label.changeElements fun part => part.changePresentPart "location" store.mapPlaceValue
  | other => .ok other

def mapHintValue (store : Store) (context : Context) (hint : Value) : Except Fault Value := do
  let placed ← hint.changePart "position"
    (store.mapPositionValue context.host context.language)
  let edited ← placed.changeFilledPart "textEdits" (store.mapEditValues context)
  edited.changePart "label" store.mapLabelValue

def wantedValue (context : Context) (hint : Value) : Except Fault Bool :=
  if context.hostRange.isNull || context.hostRange.range?.isSome then
    match hint.part "position" with
    | .ok (.position place) => .ok (wanted context place)
    | _ => .ok false
  else
    .error context.hostRange.rangeFault

def mapHintValues (store : Store) (context : Context) : List Value → Except Fault (List Value)
  | [] => .ok []
  | hint :: rest =>
    match store.mapHintValue context hint with
    | .error fault =>
      if fault.isUnmappable then store.mapHintValues context rest else .error fault
    | .ok mapped => do
        let kept ← wantedValue context mapped
        let others ← store.mapHintValues context rest
        .ok (if kept then mapped :: others else others)

def mapHintAnswer (store : Store) (context : Context) (answer : Value) : Except Fault Value :=
  (store.mapHintValues context (answer.list?.getD [answer])).map .list

end Store

end LanguageBridge
