import LanguageBridge.Mapping.Answers
import LanguageBridge.Mapping.Diagnostics
import LanguageBridge.Proofs.Addressing

namespace LanguageBridge

/-! The places that an answer names. A range that comes without a document lies in the document that
was asked about. Whatever rule brings an answer back to the host, every place in the result is the
image of a place in the answer. -/

/-! ### Places -/

def TextEdit.places (uri : String) (edits : List TextEdit) : List Location :=
  edits.map fun edit => ⟨uri, edit.range⟩

def rangePlaces (uri : String) (range : Option Range) : List Location :=
  range.toList.map fun range => ⟨uri, range⟩

def LocationLink.places (asked : String) (link : LocationLink) : List Location :=
  [⟨link.targetUri, link.targetRange⟩, ⟨link.targetUri, link.targetSelectionRange⟩] ++
    rangePlaces asked link.originSelectionRange

namespace DocumentSymbol

mutual

def places (asked : String) : DocumentSymbol → List Location
  | ⟨_, _, range, selectionRange, _, children, _⟩ =>
    [⟨asked, range⟩, ⟨asked, selectionRange⟩] ++ childrenPlaces asked children

def childrenPlaces (asked : String) : Option (List DocumentSymbol) → List Location
  | none => []
  | some children => listPlaces asked children

def listPlaces (asked : String) : List DocumentSymbol → List Location
  | [] => []
  | symbol :: rest => symbol.places asked ++ listPlaces asked rest

end

end DocumentSymbol

def SymbolPlace.places : SymbolPlace → List Location
  | location place => [place]
  | document _ => []

def DocumentChange.places : DocumentChange → List Location
  | edit change => TextEdit.places change.document.uri change.edits
  | _ => []

def changePlaces (changes : List (String × List TextEdit)) : List Location :=
  changes.flatMap fun change => TextEdit.places change.1 change.2

def WorkspaceEdit.places (edit : WorkspaceEdit) : List Location :=
  changePlaces (edit.changes.getD []) ++
    (edit.documentChanges.getD []).flatMap DocumentChange.places

def CompletionEdit.places (asked : String) : CompletionEdit → List Location
  | plain edit => [⟨asked, edit.range⟩]
  | insertReplace insert replace _ => [⟨asked, insert⟩, ⟨asked, replace⟩]
  | other _ => []

def CompletionItem.places (asked : String) (item : CompletionItem) : List Location :=
  item.edit.toList.flatMap (CompletionEdit.places asked) ++
    TextEdit.places asked (item.additionalEdits.getD [])

def EditRange.places (asked : String) : EditRange → List Location
  | range span => [⟨asked, span⟩]
  | insertReplace insert replace _ => [⟨asked, insert⟩, ⟨asked, replace⟩]

def CompletionList.places (asked : String) (list : CompletionList) : List Location :=
  list.items.flatMap (CompletionItem.places asked) ++
    (list.defaults.bind CompletionDefaults.editRange).toList.flatMap (EditRange.places asked)

def HintLabel.places : HintLabel → List Location
  | parts items => items.flatMap fun part => part.location.toList
  | other _ => []

/-- The position of a hint counts as an empty range. -/
def InlayHint.places (asked : String) (hint : InlayHint) : List Location :=
  [⟨asked, ⟨hint.position, hint.position⟩⟩] ++ TextEdit.places asked (hint.edits.getD []) ++
    hint.label.places

def Diagnostic.places (asked : String) (diagnostic : Diagnostic) : List Location :=
  [⟨asked, diagnostic.range⟩] ++
    (diagnostic.related.getD []).map RelatedInformation.location

/-- Requests that are answered with places. -/
def Method.leading : List Method :=
  [definition, typeDefinition, implementation, declaration, references]

namespace Item

def places (asked : String) : Item → List Location
  | location place => [place]
  | locationLink link => link.places asked
  | documentSymbol symbol => symbol.places asked
  | symbolInformation symbol => [symbol.location]
  | workspaceSymbol symbol => symbol.place.places
  | workspaceEdit edit => edit.places
  | range span => [⟨asked, span⟩]
  | renamePlaceholder placeholder => [⟨asked, placeholder.range⟩]
  | completionItem item => item.places asked
  | completionList list => list.places asked
  | hover shown => rangePlaces asked shown.range
  | inlayHint hint => hint.places asked
  | other _ => []

/-- Whether an item is of a kind that the protocol has for a request about a document. Data that no
rule knows goes with every request. -/
def suits (item : Item) (method : Method) : Bool :=
  match item with
  | location _ | locationLink _ => method ∈ Method.leading
  | documentSymbol _ | symbolInformation _ => method = .documentSymbol
  | workspaceSymbol _ => false
  | workspaceEdit _ => method = .rename
  | range _ | renamePlaceholder _ => method = .prepareRename
  | completionItem _ => method ∈ [.completion, .completionResolve]
  | completionList _ => method = .completion
  | hover _ => method = .hover
  | inlayHint _ => method = .inlayHint
  | other _ => true

/-- The same for symbols of the workspace. -/
def suitsWorkspace : Item → Bool
  | symbolInformation _ | workspaceSymbol _ | other _ => true
  | _ => false

end Item

namespace Answer

def places (asked : String) (answer : Answer) : List Location :=
  answer.items.flatMap (Item.places asked)

/-- Whether an answer is one that the protocol has for a request. Hovers and rename proposals come
alone. -/
def suits (answer : Answer) (method : Method) : Bool :=
  answer.isRegular method &&
    match answer with
    | null => true
    | one item => item.suits method
    | many items => method ∉ [.hover, .prepareRename] && items.all fun item => item.suits method

end Answer

/-! ### Images of places -/

namespace Store

variable {store : Store}

/-- Every place in one list is the image of a place in another. -/
def Traced (store : Store) (given mapped : List Location) : Prop :=
  ∀ place ∈ mapped, ∃ source ∈ given, store.mapLocation source = .ok place

namespace Traced

variable {given mapped otherGiven otherMapped : List Location}

theorem nil (given : List Location) : store.Traced given [] := by
  simp [Traced]

theorem mono (traced : store.Traced given mapped) (within : given ⊆ otherGiven) :
    store.Traced otherGiven mapped := by
  intro place member
  obtain ⟨source, inGiven, ok⟩ := traced place member
  exact ⟨source, within inGiven, ok⟩

theorem join (first : store.Traced given mapped) (second : store.Traced given otherMapped) :
    store.Traced given (mapped ++ otherMapped) := by
  intro place member
  rcases List.mem_append.mp member with before | behind
  · exact first place before
  · exact second place behind

theorem append (first : store.Traced given mapped) (second : store.Traced otherGiven otherMapped) :
    store.Traced (given ++ otherGiven) (mapped ++ otherMapped) :=
  (first.mono (List.subset_append_left _ _)).join (second.mono (List.subset_append_right _ _))

theorem of_location {source place : Location} (ok : store.mapLocation source = .ok place) :
    store.Traced [source] [place] := by
  intro found member
  rw [List.mem_singleton.mp member]
  exact ⟨source, List.mem_singleton_self _, ok⟩

theorem filterMap {α β : Type} {items : List α} {keep : α → Option β} {view : α → List Location}
    {mappedView : β → List Location}
    (each : ∀ item ∈ items, ∀ kept, keep item = some kept →
      store.Traced (view item) (mappedView kept)) :
    store.Traced (items.flatMap view) ((items.filterMap keep).flatMap mappedView) := by
  intro place member
  obtain ⟨kept, isKept, inView⟩ := List.mem_flatMap.mp member
  obtain ⟨item, inItems, keeps⟩ := List.mem_filterMap.mp isKept
  obtain ⟨source, inSource, ok⟩ := each item inItems kept keeps place inView
  exact ⟨source, List.mem_flatMap.mpr ⟨item, inItems, inSource⟩, ok⟩

end Traced

/-! ### Ranges in the document that was asked about -/

section Asked

variable {asked host language : String}

theorem traced_range (asking : Alias.parse? asked = some ⟨host, language⟩) {range mapped : Range}
    (ok : store.mapRange host language range = .ok mapped) :
    store.Traced [⟨asked, range⟩] [⟨host, mapped⟩] := by
  apply Traced.of_location
  simp only [mapLocation, asking, ok, Except.map]

theorem mapRange_of_mapPosition {position mapped : Position}
    (ok : store.mapPosition host language position = .ok mapped) :
    store.mapRange host language ⟨position, position⟩ = .ok ⟨mapped, mapped⟩ := by
  simp only [mapRange, ok]

theorem traced_optionalRange (asking : Alias.parse? asked = some ⟨host, language⟩)
    (range : Option Range) :
    store.Traced (rangePlaces asked range) (rangePlaces host
      (range.bind fun range => (store.mapRange host language range).toOption)) := by
  cases range with
  | none => exact .nil _
  | some range =>
    cases ok : store.mapRange host language range with
    | error fault =>
      simp only [Option.bind_some, ok, Except.toOption]
      exact .nil _
    | ok mapped =>
      simp only [Option.bind_some, ok, Except.toOption]
      exact traced_range asking ok

theorem traced_edit (asking : Alias.parse? asked = some ⟨host, language⟩) {edit mapped : TextEdit}
    (ok : store.mapEdit host language edit = .ok mapped) :
    store.Traced [⟨asked, edit.range⟩] [⟨host, mapped.range⟩] := by
  obtain ⟨range, okRange, rfl⟩ := Except.map_eq_ok ok
  exact traced_range asking okRange

theorem traced_edits (asking : Alias.parse? asked = some ⟨host, language⟩)
    {edits mapped : List TextEdit} (ok : store.mapEdits host language edits = .ok mapped) :
    store.Traced (TextEdit.places asked edits) (TextEdit.places host mapped) := by
  induction edits generalizing mapped with
  | nil =>
    cases ok
    exact .nil _
  | cons edit rest ih =>
    unfold mapEdits at ok
    split at ok
    · contradiction
    · rename_i first firstOk
      obtain ⟨others, restOk, rfl⟩ := Except.map_eq_ok ok
      exact (traced_edit asking firstOk).append (ih restOk)

theorem mapOptional_eq_ok {α : Type} {map : α → Except Fault α} {part mapped : Option α}
    (ok : mapOptional map part = .ok mapped) :
    (part = none ∧ mapped = none) ∨
      ∃ given found, part = some given ∧ mapped = some found ∧ map given = .ok found := by
  cases part with
  | none =>
    cases ok
    exact Or.inl ⟨rfl, rfl⟩
  | some given =>
    obtain ⟨value, found, rfl⟩ := Except.map_eq_ok ok
    exact Or.inr ⟨given, value, rfl, rfl, found⟩

theorem traced_optionalEdits (asking : Alias.parse? asked = some ⟨host, language⟩)
    {edits mapped : Option (List TextEdit)}
    (ok : mapOptional (store.mapEdits host language) edits = .ok mapped) :
    store.Traced (TextEdit.places asked (edits.getD [])) (TextEdit.places host (mapped.getD [])) := by
  rcases mapOptional_eq_ok ok with ⟨rfl, rfl⟩ | ⟨given, found, rfl, rfl, okEdits⟩
  · exact .nil _
  · exact traced_edits asking okEdits

end Asked

end Store

end LanguageBridge
