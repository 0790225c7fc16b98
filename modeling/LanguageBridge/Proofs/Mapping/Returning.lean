import LanguageBridge.Proofs.Mapping.Typed
import LanguageBridge.Proofs.Store.LineMapping

namespace LanguageBridge

/-! The rules for data of any shape, given data of the type that they are meant for. Each rule is
followed part by part: a part that is read has been found, and changing one part leaves the others
as they were. -/

namespace Store

/-! ### Where failures are dealt with -/

theorem orNull_mild {mapped : Except Fault Value} (mild : Mild mapped) : Mild (orNull mapped) := by
  unfold orNull
  split
  · exact .ok _
  · rename_i fault
    rw [if_pos (mild fault rfl)]
    exact .ok _

theorem keepMapped_mild {map : Value → Except Fault Value} {knownBy : Option String}
    {items : List Value} (each : ∀ item ∈ items, Mild (map item))
    (known : ∀ name ∈ knownBy, ∀ item ∈ items, Returns (item.part name)) :
    Mild (keepMapped map knownBy items) := by
  induction items with
  | nil => exact .ok _
  | cons item rest ih =>
    have others : Mild (keepMapped map knownBy rest) :=
      ih (fun other member => each other (List.mem_cons_of_mem item member))
        fun name isName other member => known name isName other (List.mem_cons_of_mem item member)
    unfold keepMapped
    split
    · exact others.map
    · rename_i fault failed
      rw [if_pos (each item List.mem_cons_self fault failed)]
      split
      · rename_i missing lacks
        obtain ⟨name, isName, isMissing⟩ := Option.map_eq_some_iff.mp lacks
        obtain ⟨part, found⟩ := known name isName item List.mem_cons_self
        rw [found] at isMissing
        contradiction
      · exact others

theorem keepMapped_mild_of_any {map : Value → Except Fault Value} {items : List Value}
    (each : ∀ item ∈ items, Mild (map item)) : Mild (keepMapped map none items) :=
  keepMapped_mild each (by simp)

/-! ### Places -/

variable (store : Store) (context : Context) (host language : String)

theorem toHost_mild (place : Position) : Mild (store.toHost host language place) := by
  intro fault failed
  unfold toHost at failed
  split at failed
  · rw [Document.toHost_error failed]
    rfl
  · cases failed
    rfl

theorem mapPositionValue_mild (place : Position) :
    Mild (store.mapPositionValue host language (.position place)) :=
  (store.toHost_mild host language place).map

theorem mapRange_mild (range : Range) : Mild (store.mapRange host language range) := by
  unfold mapRange mapPosition
  split
  · rename_i fault failed
    exact .error (store.toHost_mild host language _ fault failed)
  · split
    · exact .ok _
    · rename_i fault failed
      split
      · exact .error (store.toHost_mild host language _ fault failed)
      · exact (store.toHost_mild host language _).map

theorem mapRangeValue_mild (value : Value) (range : Range) (isRange : value.range? = some range) :
    Mild (store.mapRangeValue host language value) := by
  cases value <;> cases isRange
  exact (store.mapRange_mild host language range).map

theorem mapRangeIn_mild (uri : Value) (range : Range) :
    Mild (store.mapRangeIn uri (.range range)) := by
  unfold mapRangeIn
  split
  · exact .ok _
  · exact store.mapRangeValue_mild _ _ _ range rfl

theorem mapPlaceValue_mild (place : Value) (location : Location)
    (read : Location.ofValue? place = some location) : Mild (store.mapPlaceValue place) := by
  unfold Location.ofValue? at read
  split at read
  · split at read
    · rename_i fields _ _ uri range hasUri hasRange
      refine .bind_of_eq (Value.part_given (Fields.get?_of_text? hasUri)) ?_
      refine .bind_of_eq (Value.part_given (Fields.get?_of_range? hasRange)) ?_
      exact (store.mapRangeIn_mild _ range).bind fun _ _ => .ok _
    · contradiction
  · contradiction

theorem mapEditValue_mild {edit : Value} {read : TextEdit}
    (isEdit : TextEdit.ofValue? edit = some read) :
    Mild (store.mapEditValue host language edit) := by
  unfold TextEdit.ofValue? at isEdit
  split at isEdit
  · obtain ⟨range, hasRange, _⟩ := Option.map_eq_some_iff.mp isEdit
    exact Value.changePart_mild (Value.part_given (Fields.get?_of_range? hasRange))
      (store.mapRangeValue_mild host language _ range rfl)
  · contradiction

theorem mapEditValues_mild (edits : Value) (read : List TextEdit)
    (areEdits : TextEdit.list? edits = some read) : Mild (store.mapEditValues context edits) := by
  obtain ⟨items, rfl, each⟩ := Value.exists_of_list? areEdits
  refine Value.changeElements_mild fun item member => ?_
  obtain ⟨edit, isEdit⟩ := each item member
  exact store.mapEditValue_mild _ _ isEdit

variable {value : Value} {fields : Fields}

theorem mapLocationLink_mild {link : LocationLink}
    (read : LocationLink.ofValue? (.record "LocationLink" fields) = some link) :
    Mild (store.mapLocationValue context (.record "LocationLink" fields)) := by
  obtain ⟨hasUri, hasRange, hasSelection, readable⟩ := LocationLink.fields_of_ofValue? read
  obtain ⟨origin, hasOrigin, isOrigin⟩ := Value.exists_part "LocationLink" (by decide) readable
    (store.mapRangeValue_mild context.host context.language)
  refine .bind_of_eq (Value.part_given hasUri) ?_
  refine (Value.changePart_mild (Value.part_given hasRange) (store.mapRangeIn_mild _ _)).bind
    fun ranged isRanged => ?_
  have selection := Value.part_changePart (by decide) (Value.part_given hasSelection) isRanged
  have stillOrigin := Value.part_changePart (by decide) hasOrigin isRanged
  refine (Value.changePart_mild selection (store.mapRangeIn_mild _ _)).bind
    fun selected isSelected => ?_
  have stillOrigin := Value.part_changePart (by decide) stillOrigin isSelected
  exact (Value.changePresentPart_mild stillOrigin isOrigin).bind fun _ _ => .ok _

theorem mapLocationValue_mild (regular : (Item.ofValue value).isRegular = true) :
    Mild (store.mapLocationValue context value) := by
  unfold mapLocationValue
  split
  · obtain ⟨location, isLocation⟩ := Item.exists_of_regular regular (by decide) rfl
    exact store.mapPlaceValue_mild _ _ isLocation
  · obtain ⟨link, isLink⟩ := Item.exists_of_regular regular (by decide) rfl
    exact store.mapLocationLink_mild context isLink
  · exact .ok _

/-! ### Symbols -/

mutual

theorem mapSymbolValue_mild : ∀ (value : Value) {symbol : DocumentSymbol},
    DocumentSymbol.ofValue? value = some symbol → Mild (store.mapSymbolValue context value)
  | .record type fields, symbol, read => by
      unfold DocumentSymbol.ofValue? at read
      split at read
      · rename_i isSymbol
        subst isSymbol
        split at read
        · rename_i children hasChildren
          obtain ⟨hasRange, hasSelection⟩ := DocumentSymbol.fields_of_ofFields? read
          unfold mapSymbolValue
          refine (Value.changePart_mild (Value.part_given hasRange)
            (store.mapRangeValue_mild _ _ _ _ rfl)).bind fun ranged isRanged => ?_
          have selection :=
            Value.part_changePart (by decide) (Value.part_given hasSelection) isRanged
          refine (Value.changePart_mild selection (store.mapRangeValue_mild _ _ _ _ rfl)).bind
            fun selected _ => ?_
          refine .bind_of_eq (Value.part_owned "DocumentSymbol" "children" (by decide) fields) ?_
          exact (mapChildrenIn_mild fields hasChildren).bind fun _ _ => .ok _
        · contradiction
      · contradiction

theorem mapChildrenIn_mild : ∀ (fields : Fields) {children : Option (List DocumentSymbol)},
    DocumentSymbol.childrenIn? fields = some children → Mild (store.mapChildrenIn context fields)
  | [], _, _ => .ok _
  | (name, value) :: rest, children, read => by
      unfold DocumentSymbol.childrenIn? at read
      unfold mapChildrenIn
      split at read
      · rename_i here
        obtain ⟨symbols, areSymbols, _⟩ := Option.map_eq_some_iff.mp read
        rw [if_pos here]
        exact mapChildrenValue_mild value areSymbols
      · rename_i elsewhere
        rw [if_neg elsewhere]
        exact mapChildrenIn_mild rest read

theorem mapChildrenValue_mild : ∀ (value : Value) {symbols : List DocumentSymbol},
    DocumentSymbol.childrenOf? value = some symbols → Mild (store.mapChildrenValue context value)
  | .list items, _, read => by
      unfold DocumentSymbol.childrenOf? at read
      unfold mapChildrenValue
      exact (mapSymbolValues_mild items read).map

theorem mapSymbolValues_mild : ∀ (values : List Value) {symbols : List DocumentSymbol},
    DocumentSymbol.listOf? values = some symbols → Mild (store.mapSymbolValues context values)
  | [], _, _ => .ok _
  | child :: rest, _, read => by
      unfold DocumentSymbol.listOf? at read
      split at read
      · rename_i symbol symbols isSymbol areSymbols
        have others := mapSymbolValues_mild rest areSymbols
        unfold mapSymbolValues
        split
        · exact others.map
        · rename_i fault failed
          rw [if_pos (mapSymbolValue_mild child isSymbol fault failed)]
          -- a child that is left out is looked at once more, for its name
          obtain ⟨name, found⟩ := DocumentSymbol.part_name isSymbol
          rw [found]
          exact others
      · contradiction

end

theorem mapFlatSymbol_mild {symbol : SymbolInformation} {type : String}
    (read : SymbolInformation.ofFields? fields = some symbol) :
    Mild ((Value.record type fields).changePart "location" store.mapPlaceValue) := by
  obtain ⟨place, hasPlace, isLocation⟩ := SymbolInformation.location_of_ofFields? read
  exact Value.changePart_mild (Value.part_given hasPlace) (store.mapPlaceValue_mild _ _ isLocation)

theorem mapSymbolItemValue_mild (regular : (Item.ofValue value).isRegular = true) :
    Mild (store.mapSymbolItemValue context value) := by
  unfold mapSymbolItemValue
  split
  · obtain ⟨symbol, isSymbol⟩ := Item.exists_of_regular regular (by decide) rfl
    exact store.mapSymbolValue_mild context _ isSymbol
  · obtain ⟨symbol, isSymbol⟩ := Item.exists_of_regular regular (by decide) rfl
    exact store.mapFlatSymbol_mild isSymbol
  · exact .ok _

/-! ### Edits -/

theorem retargetValue_mild (uri : Value) {edits : Value} {read : List TextEdit}
    (areEdits : TextEdit.list? edits = some read) : Mild (store.retargetValue uri edits) := by
  obtain ⟨items, rfl, each⟩ := Value.exists_of_list? areEdits
  unfold retargetValue
  split
  · exact .ok _
  · refine .bind_of_eq rfl (Mild.bind ?_ fun _ _ => .ok _)
    refine keepMapped_mild_of_any fun item member => ?_
    obtain ⟨edit, isEdit⟩ := each item member
    exact store.mapEditValue_mild _ _ isEdit

theorem mergeEntries_mild (merged : Table String (List Value)) {entries : List (String × Value)}
    (each : ∀ entry ∈ entries, ∃ edits, TextEdit.list? entry.2 = some edits) :
    Mild (store.mergeEntries merged entries) := by
  induction entries generalizing merged with
  | nil => exact .ok _
  | cons entry rest ih =>
    obtain ⟨edits, areEdits⟩ := each entry List.mem_cons_self
    obtain ⟨uri, value⟩ := entry
    unfold mergeEntries
    split
    · rename_i fault failed
      exact .error (store.retargetValue_mild _ areEdits fault failed)
    · exact ih _ fun other member => each other (List.mem_cons_of_mem _ member)

theorem mapChangesValue_mild (changes : Value) (read : List (String × List TextEdit))
    (areChanges : WorkspaceEdit.changes? changes = some read) :
    Mild (store.mapChangesValue changes) := by
  cases changes with
  | map entries =>
    refine Mild.map (store.mergeEntries_mild {} fun entry member => ?_)
    obtain ⟨change, isChange⟩ := exists_of_mapM areChanges entry member
    obtain ⟨edits, areEdits, _⟩ := Option.map_eq_some_iff.mp isChange
    exact ⟨edits, areEdits⟩
  | _ => cases areChanges

theorem mergeTextDocumentEdit_mild (changes : List Value) {edit : TextDocumentEdit}
    (read : TextDocumentEdit.ofFields? fields = some edit) :
    Mild (store.mergeTextDocumentEdit changes (.record "TextDocumentEdit" fields)) := by
  obtain ⟨document, uri, edits, hasDocument, hasUri, hasEdits, areEdits⟩ :=
    TextDocumentEdit.fields_of_ofFields? read
  refine .bind_of_eq (Value.part_given hasDocument) (.bind_of_eq hasUri
    (.bind_of_eq (Value.part_given hasEdits) ?_))
  refine (store.retargetValue_mild uri areEdits).bind fun mapped _ => ?_
  dsimp only
  split
  · exact .ok _
  · exact .ok _

theorem hostPart_mild {name : String} {change part : Value} (held : change.part name = .ok part) :
    Mild (hostPart name change) :=
  Value.changePart_mild held (.ok _)

theorem mergeChangeValue_mild (changes : List Value) {change : Value} {read : DocumentChange}
    (isChange : DocumentChange.ofValue? change = some read) :
    Mild (store.mergeChangeValue changes change) := by
  unfold mergeChangeValue
  split
  · obtain ⟨edit, isEdit, _⟩ := Option.map_eq_some_iff.mp isChange
    exact store.mergeTextDocumentEdit_mild changes isEdit
  · exact (hostPart_mild (Value.part_owned "CreateFile" "uri" (by decide) _)).map
  · exact (hostPart_mild (Value.part_owned "DeleteFile" "uri" (by decide) _)).map
  · rename_i fields
    have old := Value.part_owned "RenameFile" "oldUri" (by decide) fields
    have new := Value.part_owned "RenameFile" "newUri" (by decide) fields
    refine (hostPart_mild old).bind fun named isNamed => ?_
    exact (hostPart_mild (Value.part_changePart (by decide) new isNamed)).bind fun _ _ => .ok _
  · exact .ok _

theorem mergeChangeValues_mild (merged : List Value) {changes : List Value}
    (each : ∀ change ∈ changes, ∃ read, DocumentChange.ofValue? change = some read) :
    Mild (store.mergeChangeValues merged changes) := by
  induction changes generalizing merged with
  | nil => exact .ok _
  | cons change rest ih =>
    obtain ⟨read, isChange⟩ := each change List.mem_cons_self
    unfold mergeChangeValues
    split
    · rename_i fault failed
      exact .error (store.mergeChangeValue_mild _ isChange fault failed)
    · exact ih _ fun other member => each other (List.mem_cons_of_mem _ member)

theorem mapDocumentChangesValue_mild (changes : Value) (read : List DocumentChange)
    (areChanges : WorkspaceEdit.documentChanges? changes = some read) :
    Mild (store.mapDocumentChangesValue changes) := by
  obtain ⟨items, rfl, each⟩ := Value.exists_of_list? areChanges
  exact .bind_of_eq rfl ((store.mergeChangeValues_mild [] each).bind fun _ _ => .ok _)

theorem mapWorkspaceEditValue_mild {edit : WorkspaceEdit}
    (read : WorkspaceEdit.ofFields? fields = some edit) :
    Mild (store.mapWorkspaceEditValue (.record "WorkspaceEdit" fields)) := by
  obtain ⟨changesReadable, documentChangesReadable⟩ := WorkspaceEdit.readable_of_ofFields? read
  obtain ⟨changes, hasChanges, areChanges⟩ := Value.exists_part "WorkspaceEdit" (by decide)
    changesReadable store.mapChangesValue_mild
  obtain ⟨documentChanges, hasDocumentChanges, areDocumentChanges⟩ :=
    Value.exists_part "WorkspaceEdit" (by decide) documentChangesReadable
      store.mapDocumentChangesValue_mild
  refine (Value.changeFilledPart_mild hasChanges areChanges).bind fun changed isChanged => ?_
  exact Value.changeFilledPart_mild
    (Value.part_changeFilledPart (by decide) hasDocumentChanges isChanged) areDocumentChanges

theorem mapRenameValue_mild (regular : (Item.ofValue value).isRegular = true) :
    Mild (store.mapRenameValue value) := by
  unfold mapRenameValue
  split
  · obtain ⟨edit, isEdit⟩ := Item.exists_of_regular regular (by decide) rfl
    exact store.mapWorkspaceEditValue_mild isEdit
  · exact .ok _

theorem mapProposalValue_mild (regular : (Item.ofValue value).isRegular = true) :
    Mild (store.mapProposalValue context value) := by
  unfold mapProposalValue
  split
  · exact orNull_mild (store.mapRangeValue_mild _ _ _ _ rfl)
  · obtain ⟨placeholder, isPlaceholder⟩ := Item.exists_of_regular regular (by decide) rfl
    obtain ⟨range, hasRange, _⟩ := Option.map_eq_some_iff.mp isPlaceholder
    have held := Fields.get?_of_range? hasRange
    refine orNull_mild (Value.changePart_mild (Value.part_given held) ?_)
    exact store.mapRangeValue_mild _ _ _ range rfl
  · exact .ok _

/-! ### Completions -/

theorem mapInsertReplaceValue_mild {type : String} {insert replace : Range}
    (hasInsert : Fields.range? fields "insert" = some insert)
    (hasReplace : Fields.range? fields "replace" = some replace) :
    Mild (store.mapInsertReplaceValue context (.record type fields)) := by
  have inserting : (Value.record type fields).part "insert" = .ok (.range insert) :=
    Value.part_given (Fields.get?_of_range? hasInsert)
  have replacing : (Value.record type fields).part "replace" = .ok (.range replace) :=
    Value.part_given (Fields.get?_of_range? hasReplace)
  refine (Value.changePart_mild inserting (store.mapRangeValue_mild _ _ _ insert rfl)).bind
    fun inserted isInserted => ?_
  exact Value.changePart_mild (Value.part_changePart (by decide) replacing isInserted)
    (store.mapRangeValue_mild _ _ _ replace rfl)

theorem mapCompletionEditValue_mild {edit : Value}
    (regular : (CompletionEdit.ofValue edit).isRegular = true) :
    Mild (store.mapCompletionEditValue context edit) := by
  unfold mapCompletionEditValue
  split
  · rename_i fields
    cases read : TextEdit.ofValue? (.record "TextEdit" fields) with
    | none => simp [CompletionEdit.ofValue, read, CompletionEdit.isRegular] at regular
    | some plain => exact store.mapEditValue_mild _ _ read
  · rename_i fields
    simp only [CompletionEdit.ofValue] at regular
    split at regular
    · rename_i hasInsert hasReplace
      exact store.mapInsertReplaceValue_mild context hasInsert hasReplace
    · simp [CompletionEdit.isRegular] at regular
  · exact .ok _

theorem mapCompletionValue_mild {item : CompletionItem}
    (read : CompletionItem.regular? value = some item) :
    Mild (store.mapCompletionValue context value) := by
  obtain ⟨fields, rfl, regularEdit, readable⟩ := CompletionItem.fields_of_regular? read
  obtain ⟨additional, hasAdditional, isAdditional⟩ := Value.exists_part "CompletionItem"
    (by decide) readable (store.mapEditValues_mild context)
  have hasData := Value.part_owned "CompletionItem" "data" (by decide) fields
  have hasEdit := Value.part_owned "CompletionItem" "textEdit" (by decide) fields
  unfold mapCompletionValue
  refine Mild.bind (Value.changePart_mild hasData (Mild.ok _)) fun named isNamed => ?_
  refine (Value.changePart_mild (Value.part_changePart (by decide) hasEdit isNamed)
    (store.mapCompletionEditValue_mild context regularEdit)).bind fun edited isEdited => ?_
  have kept := Value.part_changePart (by decide) hasAdditional isNamed
  exact Value.changeFilledPart_mild (Value.part_changePart (by decide) kept isEdited) isAdditional

theorem mapEditRangeValue_mild (range : Value) (read : EditRange)
    (isRange : EditRange.ofValue? range = some read) :
    Mild (store.mapEditRangeValue context range) := by
  unfold EditRange.ofValue? at isRange
  split at isRange
  · rename_i span
    exact store.mapRangeValue_mild context.host context.language (.range span) span rfl
  · split at isRange
    · rename_i hasInsert hasReplace
      exact store.mapInsertReplaceValue_mild context hasInsert hasReplace
    · contradiction
  · contradiction

theorem mapDefaultsValue_mild (defaults : Value) (read : CompletionDefaults)
    (areDefaults : CompletionDefaults.ofValue? defaults = some read) :
    Mild (store.mapDefaultsValue context defaults) := by
  unfold CompletionDefaults.ofValue? at areDefaults
  split at areDefaults
  · rename_i fields
    obtain ⟨found, hasRange, _⟩ := Option.map_eq_some_iff.mp areDefaults
    obtain ⟨range, held, isRange⟩ := Value.exists_part "CompletionItemDefaults" (by decide)
      (Fields.readable_of_maybe? hasRange) (store.mapEditRangeValue_mild context)
    have mapped := Value.changePresentPart_mild held isRange
    unfold mapDefaultsValue
    split
    · exact .ok _
    · rename_i fault failed
      rw [if_pos (mapped fault failed)]
      exact .ok _
  · contradiction

theorem keepCompletions_mild {items : List Value}
    (each : ∀ item ∈ items, ∃ read, CompletionItem.regular? item = some read) :
    Mild (keepMapped (store.mapCompletionValue context) none items) := by
  refine keepMapped_mild_of_any fun item member => ?_
  obtain ⟨read, isItem⟩ := each item member
  exact store.mapCompletionValue_mild context isItem

theorem mapCompletionListValue_mild {list : CompletionList}
    (read : CompletionList.ofFields? fields = some list) :
    Mild (store.mapCompletionListValue context (.record "CompletionList" fields)) := by
  obtain ⟨items, hasItems, each, readable⟩ := CompletionList.fields_of_ofFields? read
  obtain ⟨defaults, hasDefaults, areDefaults⟩ := Value.exists_part "CompletionList" (by decide)
    readable (store.mapDefaultsValue_mild context)
  refine .bind_of_eq (Value.part_given hasItems) (.bind_of_eq rfl ?_)
  refine (store.keepCompletions_mild context each).bind fun kept _ => ?_
  exact Value.changePresentPart_mild (Value.part_setPart (by decide) _ hasDefaults) areDefaults

/-! ### Hovers and hints -/

theorem mapHoverValue_mild (regular : (Item.ofValue value).isRegular = true) :
    Mild (store.mapHoverValue context value) := by
  unfold mapHoverValue
  split
  · obtain ⟨hover, isHover⟩ := Item.exists_of_regular regular (by decide) rfl
    obtain ⟨found, hasRange, _⟩ := Option.map_eq_some_iff.mp isHover
    obtain ⟨range, held, isRange⟩ := Value.exists_part "Hover" (by decide)
      (Fields.readable_of_maybe? hasRange) (store.mapRangeValue_mild context.host context.language)
    have mapped := Value.changePresentPart_mild held isRange
    split
    · exact .ok _
    · rename_i fault failed
      rw [if_pos (mapped fault failed)]
      exact .ok _
  · exact .ok _

theorem mapLabelPart_mild {part : Value} {read : LabelPart}
    (isPart : LabelPart.ofValue? part = some read) :
    Mild (part.changePresentPart "location" store.mapPlaceValue) := by
  unfold LabelPart.ofValue? at isPart
  split at isPart
  · obtain ⟨found, hasPlace, _⟩ := Option.map_eq_some_iff.mp isPart
    obtain ⟨place, held, isPlace⟩ := Value.exists_part "InlayHintLabelPart" (by decide)
      (Fields.readable_of_maybe? hasPlace) store.mapPlaceValue_mild
    exact Value.changePresentPart_mild held isPlace
  · contradiction

theorem mapLabelValue_mild {label : Value} {read : HintLabel}
    (isLabel : HintLabel.ofValue? label = some read) : Mild (store.mapLabelValue label) := by
  unfold mapLabelValue
  split
  · obtain ⟨parts, areParts, _⟩ := Option.map_eq_some_iff.mp isLabel
    refine Value.changeElements_mild fun part member => ?_
    obtain ⟨found, isPart⟩ := exists_of_mapM areParts part member
    exact store.mapLabelPart_mild isPart
  · exact .ok _

theorem mapHintValue_mild {hint : InlayHint} (read : InlayHint.ofFields? fields = some hint) :
    Mild (store.mapHintValue context (.record "InlayHint" fields)) := by
  obtain ⟨hasPosition, ⟨label, hasLabel, isLabel⟩, readable⟩ := InlayHint.fields_of_ofFields? read
  obtain ⟨edits, hasEdits, areEdits⟩ := Value.exists_part "InlayHint" (by decide) readable
    (store.mapEditValues_mild context)
  refine (Value.changePart_mild (Value.part_given hasPosition)
    (store.mapPositionValue_mild _ _ hint.position)).bind fun placed isPlaced => ?_
  refine (Value.changeFilledPart_mild (Value.part_changePart (by decide) hasEdits isPlaced)
    areEdits).bind fun edited isEdited => ?_
  have kept := Value.part_changePart (by decide) (Value.part_given hasLabel) isPlaced
  exact Value.changePart_mild (Value.part_changeFilledPart (by decide) kept isEdited)
    (store.mapLabelValue_mild isLabel)

/-- What was asked for is a range, if anything. -/
theorem wantedValue_mild
    (proper : (context.hostRange.isNull || context.hostRange.range?.isSome) = true) (hint : Value) :
    Mild (wantedValue context hint) := by
  unfold wantedValue
  rw [if_pos proper]
  split <;> exact .ok _

theorem mapHintValues_mild
    (proper : (context.hostRange.isNull || context.hostRange.range?.isSome) = true)
    {hints : List Value} (each : ∀ hint ∈ hints, Mild (store.mapHintValue context hint)) :
    Mild (store.mapHintValues context hints) := by
  induction hints with
  | nil => exact .ok _
  | cons hint rest ih =>
    have others := ih fun other member => each other (List.mem_cons_of_mem hint member)
    unfold mapHintValues
    split
    · rename_i fault failed
      rw [if_pos (each hint List.mem_cons_self fault failed)]
      exact others
    · exact (wantedValue_mild context proper _).bind fun _ _ => others.bind fun _ _ => .ok _

/-! ### Diagnostics -/

theorem mapRelatedValue_mild (related : Value) (read : List RelatedInformation)
    (areRelated : RelatedInformation.list? related = some read) :
    Mild (store.mapRelatedValue related) := by
  obtain ⟨items, rfl, each⟩ := Value.exists_of_list? areRelated
  refine Value.changeElements_mild fun item member => ?_
  obtain ⟨information, isInformation⟩ := each item member
  unfold RelatedInformation.ofValue? at isInformation
  split at isInformation
  · obtain ⟨location, hasLocation, _⟩ := Option.map_eq_some_iff.mp isInformation
    obtain ⟨place, held, isLocation⟩ := Option.bind_eq_some_iff.mp hasLocation
    exact Value.changePart_mild (Value.part_given held) (store.mapPlaceValue_mild _ _ isLocation)
  · contradiction

theorem mapDiagnosticValue_mild {diagnostic : Diagnostic}
    (read : (Diagnostic.ofValue? value).filter Diagnostic.isRegular = some diagnostic) :
    Mild (store.mapDiagnosticValue host language value) := by
  obtain ⟨fields, rfl, hasRange, readable⟩ := Diagnostic.fields_of_ofValue? read
  obtain ⟨related, hasRelated, areRelated⟩ := Value.exists_part "Diagnostic" (by decide) readable
    store.mapRelatedValue_mild
  refine (Value.changePart_mild (Value.part_given hasRange)
    (store.mapRangeValue_mild _ _ _ _ rfl)).bind fun ranged isRanged => ?_
  have kept := Value.part_changePart (by decide) hasRelated isRanged
  exact Value.changeFilledPart_mild kept areRelated

/-! ### Symbols of the workspace -/

theorem mapWorkspaceSymbolValue_mild {type : String} {place : SymbolPlace}
    (held : Fields.get? fields "location" = some value)
    (read : SymbolPlace.ofValue? value = some place) :
    Mild (store.mapWorkspaceSymbolValue (.record type fields)) := by
  unfold mapWorkspaceSymbolValue
  rw [Value.part_given held]
  unfold SymbolPlace.ofValue? at read
  split at read
  · obtain ⟨location, isLocation, _⟩ := Option.map_eq_some_iff.mp read
    exact Value.changePart_mild (Value.part_given held) (store.mapPlaceValue_mild _ _ isLocation)
  · rename_i notLocation
    obtain ⟨document, isDocument, _⟩ := Option.map_eq_some_iff.mp read
    split
    · contradiction
    · exact .ok _
    · rename_i fields same
      exact absurd (Except.ok.inj same) (notLocation fields)
    · refine Value.changePart_mild (Value.part_given held) ?_
      exact Value.changePart_mild (Identifier.part_uri isDocument) (.ok _)

theorem mapTypedSymbol_mild (symbol : (Item.ofValue value).isWorkspaceSymbol = true) :
    Mild (store.mapWorkspaceSymbolValue value) ∧ Returns (value.part "name") := by
  cases read : Item.ofValue value with
  | symbolInformation flat =>
    cases Item.reads_of_ofValue read (by simp) with
    | symbolInformation isFlat =>
      obtain ⟨place, held, isLocation⟩ := SymbolInformation.location_of_ofFields? isFlat
      have read := SymbolPlace.ofValue?_location isLocation
      exact ⟨store.mapWorkspaceSymbolValue_mild held read,
        _, Value.part_owned "SymbolInformation" "name" (by decide) _⟩
  | workspaceSymbol found =>
    cases Item.reads_of_ofValue read (by simp) with
    | workspaceSymbol isFound =>
      obtain ⟨place, isPlace, _⟩ := Option.map_eq_some_iff.mp isFound
      obtain ⟨value, held, readable⟩ := Option.bind_eq_some_iff.mp isPlace
      exact ⟨store.mapWorkspaceSymbolValue_mild held readable,
        _, Value.part_owned "WorkspaceSymbol" "name" (by decide) _⟩
  | _ =>
    rw [read] at symbol
    contradiction

/-! ### Whole answers -/

theorem keepMappedItems_mild {map : Value → Except Fault Value} {answer : Value}
    (each : ∀ item ∈ answer.list?.getD [answer], Mild (map item)) :
    Mild (keepMappedItems map answer) := by
  cases answer with
  | list items => exact (keepMapped_mild_of_any each).map
  | _ => exact orNull_mild (each _ List.mem_cons_self)

section Answers

variable {answer : Value} (given : answer.isNull = false)
include given

theorem mapRenameAnswer_mild (regular : (Answer.ofValue answer).isRegular .rename = true) :
    Mild (store.mapRenameAnswer answer) := by
  have each : ∀ item ∈ answer.list?.getD [answer], Mild (store.mapRenameValue item) := by
    intro item member
    exact store.mapRenameValue_mild
      (Answer.items_regular rfl regular _ (Answer.mem_items_ofValue given member))
  cases answer with
  | list items => exact Value.changeElements_mild each
  | _ => exact each _ List.mem_cons_self

theorem mapCompletionAnswer_mild (regular : (Answer.ofValue answer).isRegular .completion = true) :
    Mild (store.mapCompletionAnswer context answer) := by
  rcases Answer.completions_of_regular regular with ⟨list, isList⟩ | completions
  · obtain ⟨fields, rfl, read⟩ := Answer.completionList_of_ofValue isList
    exact store.mapCompletionListValue_mild context read
  · have each : ∀ item ∈ answer.list?.getD [answer],
        ∃ found, CompletionItem.regular? item = some found := by
      intro item member
      exact Item.completion_of_ofValue (completions _ (Answer.mem_items_ofValue given member))
    unfold mapCompletionAnswer
    split
    · obtain ⟨_, isItem⟩ := each _ List.mem_cons_self
      obtain ⟨_, same, _⟩ := CompletionItem.fields_of_regular? isItem
      simp at same
    · exact (store.keepCompletions_mild context each).map
    · rename_i notList
      refine (store.keepCompletions_mild context fun item member => each item ?_).map
      cases answer with
      | list items => exact absurd rfl (notList items)
      | _ => exact member

theorem mapHintAnswer_mild (proper : context.isRegular = true)
    (regular : (Answer.ofValue answer).isRegular .inlayHint = true) :
    Mild (store.mapHintAnswer context answer) := by
  refine (store.mapHintValues_mild context (Bool.and_eq_true_iff.mp proper).2
    fun hint member => ?_).map
  obtain ⟨fields, read, rfl, isHint⟩ := Item.hint_of_ofValue
    (Answer.hints_of_regular regular _ (Answer.mem_items_ofValue given member))
  exact store.mapHintValue_mild context isHint

theorem mapAnswerValue_mild (proper : context.isRegular = true)
    (regular : (Answer.ofValue answer).isRegular context.method = true) :
    Mild (store.mapAnswerValue context answer) := by
  unfold mapAnswerValue
  generalize context.method = method at regular
  cases method with
  | definition | typeDefinition | implementation | declaration | references =>
    refine keepMappedItems_mild fun item member => ?_
    exact store.mapLocationValue_mild context
      (Answer.items_regular rfl regular _ (Answer.mem_items_ofValue given member))
  | documentSymbol =>
    refine keepMappedItems_mild fun item member => ?_
    exact store.mapSymbolItemValue_mild context
      (Answer.items_regular rfl regular _ (Answer.mem_items_ofValue given member))
  | rename => exact store.mapRenameAnswer_mild given regular
  | prepareRename => exact store.mapProposalValue_mild context (Answer.item_regular rfl regular)
  | completion => exact store.mapCompletionAnswer_mild context given regular
  | completionResolve =>
    obtain ⟨item, isItem⟩ := Answer.resolved_of_regular given regular
    exact orNull_mild (store.mapCompletionValue_mild context isItem)
  | hover => exact store.mapHoverValue_mild context (Answer.item_regular rfl regular)
  | inlayHint => exact store.mapHintAnswer_mild context given proper regular
  | signatureHelp | workspaceSymbol | other => exact .ok _

end Answers

end Store

end LanguageBridge
