import LanguageBridge.Mapping.Coordinates
import LanguageBridge.Protocol.Answer
import LanguageBridge.Routing.Context

namespace LanguageBridge

/-! Answers made of places: definitions, references and the like. -/

namespace Store

/-- The target lies in a document of its own, the origin in the document of the request. -/
def mapLocationLink (store : Store) (context : Context) (link : LocationLink) :
    Except Fault LocationLink := do
  let target ← store.mapLocation ⟨link.targetUri, link.targetRange⟩
  let selection ← store.mapLocation ⟨link.targetUri, link.targetSelectionRange⟩
  let origin ←
    match link.originSelectionRange with
    | none => .ok none
    | some range => (store.mapRange context.host context.language range).map some
  .ok ⟨target.uri, target.range, selection.range, origin⟩

def mapLocationItem (store : Store) (context : Context) (item : Item) : Except Fault Item :=
  match item with
  | .location location => (store.mapLocation location).map .location
  | .locationLink link => (store.mapLocationLink context link).map .locationLink
  | other => .ok other

def mapLocations (store : Store) (context : Context) (answer : Answer) : Answer :=
  answer.restore (answer.items.filterMap fun item => (store.mapLocationItem context item).toOption)

def mapLocationValue (store : Store) (context : Context) (value : Value) : Except Fault Value :=
  match value with
  | .record "Location" _ => store.mapPlaceValue value
  | .record "LocationLink" _ => do
      let uri ← value.part "targetUri"
      let ranged ← value.changePart "targetRange" (store.mapRangeIn uri)
      let selected ← ranged.changePart "targetSelectionRange" (store.mapRangeIn uri)
      let linked ← selected.changePresentPart "originSelectionRange"
        (store.mapRangeValue context.host context.language)
      .ok (linked.setPart "targetUri" (Alias.hostOfValue uri))
  | other => .ok other

end Store

end LanguageBridge
