import LanguageBridge.Mapping.Answers
import LanguageBridge.Mapping.Diagnostics

namespace LanguageBridge

/-! Places without a counterpart. A child server may answer about a text that the host no longer
has, so almost every place in an answer can fail to map. Whatever the answer looks like, such a
failure costs a part of it and never the whole. -/

/-- No fault gets out that says of a place that it has no counterpart. -/
def Sealed {α : Type} (result : Except Fault α) : Prop :=
  ∀ fault, result = .error fault → fault.isUnmappable = false

namespace Sealed

variable {α β : Type} {result : Except Fault α}

@[simp] theorem ok (value : α) : Sealed (.ok value : Except Fault α) := by
  intro fault failed
  cases failed

theorem error {fault : Fault} (other : fault.isUnmappable = false) :
    Sealed (.error fault : Except Fault α) := by
  intro found failed
  cases failed
  exact other

theorem bind {next : α → Except Fault β} (first : Sealed result)
    (after : ∀ value, Sealed (next value)) : Sealed (result >>= next) := by
  cases result with
  | error fault => exact error (first fault rfl)
  | ok value => exact after value

theorem map {change : α → β} (first : Sealed result) : Sealed (result.map change) := by
  cases result with
  | error fault => exact error (first fault rfl)
  | ok value => exact ok _

theorem mapM {change : α → Except Fault β} (each : ∀ item, Sealed (change item)) (items : List α) :
    Sealed (items.mapM change) := by
  induction items with
  | nil => exact ok _
  | cons item rest ih =>
    rw [List.mapM_cons]
    exact (each item).bind fun _ => ih.bind fun _ => ok _

end Sealed

/-! ### Looking into data -/

namespace Value

variable (value : Value) (name : String) {change : Value → Except Fault Value}

theorem part_sealed : Sealed (value.part name) := by
  unfold part
  split
  · split
    · exact .ok _
    · split
      · exact .ok _
      · exact .error rfl
  · exact .error rfl

theorem rangeFault_other : value.rangeFault.isUnmappable = false := by
  unfold rangeFault
  split
  · rfl
  · rename_i fault failed
    exact part_sealed value "start" fault failed

theorem elements_sealed : Sealed value.elements := by
  unfold elements
  split
  · exact .ok _
  · exact .error rfl

theorem givePart_sealed (new : Value) : Sealed (value.givePart name new) := by
  unfold givePart
  split
  · split
    · exact .ok _
    · exact .error rfl
  · exact .error rfl
  · exact .error rfl
  · exact .error rfl

variable (each : ∀ part, Sealed (change part))
include each

theorem changePart_sealed : Sealed (value.changePart name change) :=
  (value.part_sealed name).bind fun part => (each part).bind fun _ => .ok _

theorem changePresentPart_sealed : Sealed (value.changePresentPart name change) := by
  refine (value.part_sealed name).bind fun part => ?_
  split
  · exact .ok _
  · exact value.changePart_sealed name each

theorem changeFilledPart_sealed : Sealed (value.changeFilledPart name change) := by
  refine (value.part_sealed name).bind fun part => ?_
  split
  · exact value.changePart_sealed name each
  · exact .ok _

theorem changeElements_sealed : Sealed (value.changeElements change) :=
  value.elements_sealed.bind fun items => (Sealed.mapM each items).bind fun _ => .ok _

end Value

namespace Store

/-! ### Where failures are dealt with -/

theorem orNull_sealed (mapped : Except Fault Value) : Sealed (orNull mapped) := by
  unfold orNull
  split
  · exact .ok _
  · split
    · exact .ok _
    · rename_i other
      exact .error (by simpa using other)

theorem keepMapped_sealed (map : Value → Except Fault Value) (knownBy : Option String)
    (items : List Value) : Sealed (keepMapped map knownBy items) := by
  induction items with
  | nil => exact .ok _
  | cons item rest ih =>
    unfold keepMapped
    split
    · exact ih.map
    · split
      · split
        · rename_i missing lacks
          obtain ⟨name, _, isMissing⟩ := Option.map_eq_some_iff.mp lacks
          exact .error (item.part_sealed name missing isMissing)
        · exact ih
      · rename_i other
        exact .error (by simpa using other)

theorem keepMappedItems_sealed (map : Value → Except Fault Value) (answer : Value) :
    Sealed (keepMappedItems map answer) := by
  unfold keepMappedItems
  split
  · exact (keepMapped_sealed map none _).map
  · exact orNull_sealed _

/-! ### Edits -/

variable (store : Store) (context : Context)

theorem retargetValue_sealed (uri edits : Value) : Sealed (store.retargetValue uri edits) := by
  unfold retargetValue
  split
  · exact edits.elements_sealed.map
  · exact edits.elements_sealed.bind fun items =>
      (keepMapped_sealed _ none items).bind fun _ => .ok _

theorem mergeEntries_sealed (merged : Table String (List Value)) (entries : List (String × Value)) :
    Sealed (store.mergeEntries merged entries) := by
  induction entries generalizing merged with
  | nil => exact .ok _
  | cons entry rest ih =>
    obtain ⟨uri, edits⟩ := entry
    unfold mergeEntries
    split
    · rename_i fault failed
      exact .error (store.retargetValue_sealed _ _ fault failed)
    · exact ih _

theorem mapChangesValue_sealed (changes : Value) : Sealed (store.mapChangesValue changes) := by
  unfold mapChangesValue
  split
  · exact (store.mergeEntries_sealed _ _).map
  · exact (Value.part_sealed _ _).bind fun _ => .error rfl

theorem mergeTextDocumentEdit_sealed (changes : List Value) (change : Value) :
    Sealed (store.mergeTextDocumentEdit changes change) := by
  refine (change.part_sealed _).bind fun document => (document.part_sealed _).bind fun uri =>
    (change.part_sealed _).bind fun edits =>
      (store.retargetValue_sealed uri edits).bind fun mapped => ?_
  dsimp only
  split
  · exact .ok _
  · exact .ok _

theorem hostPart_sealed (name : String) (change : Value) : Sealed (hostPart name change) :=
  change.changePart_sealed name fun _ => .ok _

theorem mergeChangeValue_sealed (changes : List Value) (change : Value) :
    Sealed (store.mergeChangeValue changes change) := by
  unfold mergeChangeValue
  split
  · exact store.mergeTextDocumentEdit_sealed changes _
  · exact (hostPart_sealed _ _).map
  · exact (hostPart_sealed _ _).map
  · exact (hostPart_sealed _ _).bind fun _ => (hostPart_sealed _ _).bind fun _ => .ok _
  · exact .ok _

theorem mergeChangeValues_sealed (merged changes : List Value) :
    Sealed (store.mergeChangeValues merged changes) := by
  induction changes generalizing merged with
  | nil => exact .ok _
  | cons change rest ih =>
    unfold mergeChangeValues
    split
    · rename_i fault failed
      exact .error (store.mergeChangeValue_sealed _ _ fault failed)
    · exact ih _

theorem mapWorkspaceEditValue_sealed (edit : Value) :
    Sealed (store.mapWorkspaceEditValue edit) := by
  refine (edit.changeFilledPart_sealed _ store.mapChangesValue_sealed).bind fun changed => ?_
  refine changed.changeFilledPart_sealed _ fun changes => ?_
  exact changes.elements_sealed.bind fun items =>
    (store.mergeChangeValues_sealed [] items).bind fun _ => .ok _

theorem mapRenameValue_sealed (value : Value) : Sealed (store.mapRenameValue value) := by
  unfold mapRenameValue
  split
  · exact store.mapWorkspaceEditValue_sealed _
  · exact .ok _

theorem mapRenameAnswer_sealed (answer : Value) : Sealed (store.mapRenameAnswer answer) := by
  unfold mapRenameAnswer
  split
  · exact Value.changeElements_sealed _ store.mapRenameValue_sealed
  · exact store.mapRenameValue_sealed _

theorem mapProposalValue_sealed (answer : Value) :
    Sealed (store.mapProposalValue context answer) := by
  unfold mapProposalValue
  split
  · exact orNull_sealed _
  · exact orNull_sealed _
  · exact .ok _

/-! ### Completions, hovers and hints -/

theorem mapDefaultsValue_sealed (defaults : Value) :
    Sealed (store.mapDefaultsValue context defaults) := by
  unfold mapDefaultsValue
  split
  · exact .ok _
  · split
    · exact .ok _
    · rename_i other
      exact .error (by simpa using other)

theorem mapCompletionAnswer_sealed (answer : Value) :
    Sealed (store.mapCompletionAnswer context answer) := by
  unfold mapCompletionAnswer
  split
  · refine (Value.part_sealed _ _).bind fun items => items.elements_sealed.bind fun given =>
      (keepMapped_sealed _ none given).bind fun kept => ?_
    exact Value.changePresentPart_sealed _ _ (store.mapDefaultsValue_sealed context)
  · exact (keepMapped_sealed _ none _).map
  · exact (keepMapped_sealed _ none _).map

theorem mapHoverValue_sealed (answer : Value) : Sealed (store.mapHoverValue context answer) := by
  unfold mapHoverValue
  split
  · split
    · exact .ok _
    · split
      · exact .ok _
      · rename_i other
        exact .error (by simpa using other)
  · exact .ok _

theorem wantedValue_sealed (hint : Value) : Sealed (wantedValue context hint) := by
  unfold wantedValue
  split
  · split <;> exact .ok _
  · exact .error (Value.rangeFault_other _)

theorem mapHintValues_sealed (hints : List Value) : Sealed (store.mapHintValues context hints) := by
  induction hints with
  | nil => exact .ok _
  | cons hint rest ih =>
    unfold mapHintValues
    split
    · split
      · exact ih
      · rename_i other
        exact .error (by simpa using other)
    · exact (wantedValue_sealed context _).bind fun _ => ih.bind fun _ => .ok _

/-! ### Whole answers -/

theorem mapAnswerValue_sealed (answer : Value) : Sealed (store.mapAnswerValue context answer) := by
  unfold mapAnswerValue
  cases context.method with
  | definition | typeDefinition | implementation | declaration | references | documentSymbol =>
    exact keepMappedItems_sealed _ _
  | rename => exact store.mapRenameAnswer_sealed answer
  | prepareRename => exact store.mapProposalValue_sealed context answer
  | completion => exact store.mapCompletionAnswer_sealed context answer
  | completionResolve => exact orNull_sealed _
  | hover => exact store.mapHoverValue_sealed context answer
  | inlayHint => exact (store.mapHintValues_sealed context _).map
  | signatureHelp | workspaceSymbol | other => exact .ok _

end Store

theorem Answer.elements_sealed (answer : Answer) : Sealed answer.elements := by
  cases answer with
  | null => exact .ok _
  | one item => exact (Value.elements_sealed _).map
  | many items => exact .ok _

theorem Context.restore_sealed (context : Context) : Sealed context.restore := by
  refine Sealed.map ?_
  unfold Params.restoreUri
  split
  · split
    · exact .ok _
    · rename_i about _
      exact (about.part_sealed _).bind fun _ => (about.givePart_sealed _ _).bind fun _ => .ok _
  · exact .ok _

namespace Store

theorem bringValueBack_sealed (store : Store) (context : Context) (answer : Answer) :
    Sealed (store.bringValueBack context answer).1 := by
  unfold bringValueBack
  dsimp only
  split
  · rename_i fault failed
    refine .error ?_
    cases answer with
    | null => cases failed
    | one item => exact store.mapAnswerValue_sealed context _ fault failed
    | many items => exact store.mapAnswerValue_sealed context _ fault failed
  · split
    · rename_i fault failed
      exact .error (Context.restore_sealed _ fault failed)
    · exact .ok _

theorem bringBack_sealed (store : Store) (context : Context) (answer : Answer) :
    Sealed (store.bringBack context answer).1 := by
  unfold bringBack
  split
  · exact .ok _
  · exact store.bringValueBack_sealed context answer

theorem bringEditBack_sealed (store : Store) (edit : Value) :
    Sealed (store.bringEditBack edit) := by
  unfold bringEditBack
  split
  · exact .ok _
  · exact store.mapWorkspaceEditValue_sealed _

theorem bringSymbolsBack_sealed (store : Store) (answer : Answer) :
    Sealed (store.bringSymbolsBack answer) := by
  refine answer.elements_sealed.bind fun items => ?_
  split
  · exact .ok _
  · exact (keepMapped_sealed _ _ _).bind fun _ => .ok _

theorem bringPublicationBack_sealed (store : Store) (uri : String) (published : Value) :
    Sealed (store.bringPublicationBack uri published) := by
  unfold bringPublicationBack
  split
  · exact .ok _
  · refine published.elements_sealed.bind fun items => ?_
    split
    · exact .ok _
    · exact (keepMapped_sealed _ _ _).bind fun _ => .ok _

end Store

end LanguageBridge
