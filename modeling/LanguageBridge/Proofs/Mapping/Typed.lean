import LanguageBridge.Proofs.Addressing
import LanguageBridge.Proofs.Mapping.Faults

namespace LanguageBridge

/-! Data of the type that a rule is meant for. Nothing can go wrong with it but that a place has no
counterpart, and wherever that happens it is dealt with, so the rule returns. -/

def Returns {α : Type} (result : Except Fault α) : Prop :=
  ∃ value, result = .ok value

/-- Nothing goes wrong but that a place has no counterpart. -/
def Mild {α : Type} (result : Except Fault α) : Prop :=
  ∀ fault, result = .error fault → fault.isUnmappable = true

namespace Mild

variable {α β : Type} {result : Except Fault α}

@[simp] theorem ok (value : α) : Mild (.ok value : Except Fault α) := by
  intro fault failed
  cases failed

theorem error {fault : Fault} (unmappable : fault.isUnmappable = true) :
    Mild (.error fault : Except Fault α) := by
  intro found failed
  cases failed
  exact unmappable

theorem bind {next : α → Except Fault β} (first : Mild result)
    (after : ∀ value, result = .ok value → Mild (next value)) : Mild (result >>= next) := by
  cases result with
  | error fault => exact error (first fault rfl)
  | ok value => exact after value rfl

theorem bind_of_eq {next : α → Except Fault β} {value : α} (known : result = .ok value)
    (after : Mild (next value)) : Mild (result >>= next) := by
  subst known
  exact after

theorem map {change : α → β} (first : Mild result) : Mild (result.map change) := by
  cases result with
  | error fault => exact error (first fault rfl)
  | ok value => exact ok _

theorem mapM {change : α → Except Fault β} {items : List α}
    (each : ∀ item ∈ items, Mild (change item)) : Mild (items.mapM change) := by
  induction items with
  | nil => exact ok _
  | cons item rest ih =>
    rw [List.mapM_cons]
    refine (each item List.mem_cons_self).bind fun _ _ => Mild.bind ?_ fun _ _ => ok _
    exact ih fun other member => each other (List.mem_cons_of_mem item member)

/-- What can go wrong and what can get out have nothing in common. -/
theorem returns (mild : Mild result) (sealed : Sealed result) : Returns result := by
  cases result with
  | error fault =>
    have unmappable := mild fault rfl
    rw [sealed fault rfl] at unmappable
    contradiction
  | ok value => exact ⟨value, rfl⟩

end Mild

/-! ### What typed data holds -/

theorem exists_of_mapM {α β : Type} {read : α → Option β} {items : List α} {found : List β}
    (all : items.mapM read = some found) : ∀ item ∈ items, ∃ value, read item = some value := by
  induction items generalizing found with
  | nil => simp
  | cons item rest ih =>
    rw [List.mapM_cons] at all
    obtain ⟨value, isValue, others⟩ := Option.bind_eq_some_iff.mp all
    obtain ⟨values, areValues, _⟩ := Option.bind_eq_some_iff.mp others
    intro other member
    rcases List.mem_cons.mp member with same | behind
    · exact ⟨value, same ▸ isValue⟩
    · exact ih areValues other behind

theorem Value.exists_of_list? {β : Type} {read : Value → Option β} {value : Value} {found : List β}
    (all : (value.list?.bind fun items => items.mapM read) = some found) :
    ∃ items, value = .list items ∧ ∀ item ∈ items, ∃ part, read item = some part := by
  obtain ⟨items, isList, readable⟩ := Option.bind_eq_some_iff.mp all
  cases value <;> cases isList
  exact ⟨items, rfl, exists_of_mapM readable⟩

namespace Fields

variable {fields : Fields} {name : String}

theorem get?_of_text? {text : String} (found : text? fields name = some text) :
    get? fields name = some (.str text) := by
  obtain ⟨value, held, isText⟩ := Option.bind_eq_some_iff.mp found
  cases value <;> cases isText
  exact held

theorem get?_of_range? {range : Range} (found : range? fields name = some range) :
    get? fields name = some (.range range) := by
  obtain ⟨value, held, isRange⟩ := Option.bind_eq_some_iff.mp found
  cases value <;> cases isRange
  exact held

/-- A field that need not be there: if it is there, it can be read. -/
def Readable {α : Type} (fields : Fields) (name : String) (read : Value → Option α) : Prop :=
  ∀ value, get? fields name = some value → ∃ part, read value = some part

theorem readable_of_maybe? {α : Type} {read : Value → Option α} {found : Option α}
    (taken : maybe? fields name read = some found) : Readable fields name read := by
  intro value held
  rw [maybe?, held] at taken
  obtain ⟨part, isPart, _⟩ := Option.map_eq_some_iff.mp taken
  exact ⟨part, isPart⟩

theorem readable_of_take {α : Type} {read : Value → Option α}
    (gone : get? (take fields name read).2 name = none) : Readable fields name read := by
  intro value held
  cases taken : read value with
  | some part => exact ⟨part, rfl⟩
  | none =>
    rw [take, held, Option.bind_some, taken, held] at gone
    contradiction

end Fields

namespace Value

variable {type name wanted : String} {fields : Fields} {owner after part : Value}
  {change : Value → Except Fault Value}

theorem part_given (given : Fields.get? fields name = some part) :
    (Value.record type fields).part name = .ok part := by
  simp [Value.part, given]

/-- A part that structures of a type have is always found. -/
theorem part_owned (type name : String) (owned : type ∈ (partOwners.lookup name).getD [])
    (fields : Fields) :
    (Value.record type fields).part name = .ok ((Fields.get? fields name).getD .null) := by
  cases given : Fields.get? fields name with
  | none => simp [Value.part, given, owned]
  | some value => exact part_given given

theorem part_setPart (other : wanted ≠ name) (new : Value) (held : owner.part wanted = .ok part) :
    (owner.setPart name new).part wanted = .ok part := by
  cases owner with
  | record type fields =>
    rw [← held]
    simp only [Value.setPart, Value.part, Fields.get?_update, if_neg other]
    split
    · rfl
    · split
      · rfl
      · rename_i absent unowned
        simp [Value.part, absent, unowned] at held
  | _ => exact held

theorem changePart_eq_ok (done : owner.changePart name change = .ok after) :
    ∃ new, after = owner.setPart name new := by
  obtain ⟨_, _, done⟩ := Except.bind_eq_ok done
  obtain ⟨new, _, done⟩ := Except.bind_eq_ok done
  cases done
  exact ⟨new, rfl⟩

/-! A structure keeps its other parts when one is changed. -/

section Keeping

variable (other : wanted ≠ name) (held : owner.part wanted = .ok part)
include other held

theorem part_changePart (done : owner.changePart name change = .ok after) :
    after.part wanted = .ok part := by
  obtain ⟨new, rfl⟩ := changePart_eq_ok done
  exact part_setPart other new held

theorem part_changeFilledPart (done : owner.changeFilledPart name change = .ok after) :
    after.part wanted = .ok part := by
  obtain ⟨_, _, done⟩ := Except.bind_eq_ok done
  split at done
  · exact part_changePart other held done
  · cases done
    exact held

end Keeping

section Changing

variable (held : owner.part name = .ok part)
include held

theorem changePart_mild (each : Mild (change part)) : Mild (owner.changePart name change) :=
  .bind_of_eq held (each.bind fun _ _ => .ok _)

theorem changePresentPart_mild (each : part = .null ∨ Mild (change part)) :
    Mild (owner.changePresentPart name change) := by
  refine .bind_of_eq held ?_
  rcases each with rfl | each
  · exact .ok _
  · split
    · exact .ok _
    · exact changePart_mild held each

theorem changeFilledPart_mild (each : part = .null ∨ Mild (change part)) :
    Mild (owner.changeFilledPart name change) := by
  refine .bind_of_eq held ?_
  rcases each with rfl | each
  · exact .ok _
  · split
    · exact changePart_mild held each
    · exact .ok _

end Changing

/-- A part that need not be there, under a change that suits whatever can be read. -/
theorem exists_part (type : String) {α : Type} {read : Value → Option α}
    (owned : type ∈ (partOwners.lookup name).getD []) (readable : Fields.Readable fields name read)
    (each : ∀ part found, read part = some found → Mild (change part)) :
    ∃ part, (Value.record type fields).part name = .ok part ∧
      (part = .null ∨ Mild (change part)) := by
  refine ⟨_, part_owned type name owned fields, ?_⟩
  cases given : Fields.get? fields name with
  | none => exact Or.inl rfl
  | some value =>
    obtain ⟨found, isFound⟩ := readable value given
    exact Or.inr (each value found isFound)

theorem changeElements_mild {items : List Value} (each : ∀ item ∈ items, Mild (change item)) :
    Mild ((Value.list items).changeElements change) :=
  .bind_of_eq rfl ((Mild.mapM each).bind fun _ _ => .ok _)

end Value

/-! ### Structures

What a structure is read from has the parts that its type asks for. -/

theorem LocationLink.fields_of_ofValue? {fields : Fields} {link : LocationLink}
    (read : ofValue? (.record "LocationLink" fields) = some link) :
    Fields.get? fields "targetUri" = some (.str link.targetUri) ∧
      Fields.get? fields "targetRange" = some (.range link.targetRange) ∧
      Fields.get? fields "targetSelectionRange" = some (.range link.targetSelectionRange) ∧
      Fields.Readable fields "originSelectionRange" Value.range? := by
  simp only [ofValue?] at read
  split at read
  · rename_i hasUri hasRange hasSelection absent
    cases read
    refine ⟨Fields.get?_of_text? hasUri, Fields.get?_of_range? hasRange,
      Fields.get?_of_range? hasSelection, ?_⟩
    simp [Fields.Readable, absent]
  · rename_i hasUri hasRange hasSelection present
    cases read
    refine ⟨Fields.get?_of_text? hasUri, Fields.get?_of_range? hasRange,
      Fields.get?_of_range? hasSelection, ?_⟩
    simp [Fields.Readable, present, Value.range?]
  · contradiction

theorem DocumentSymbol.fields_of_ofFields? {fields : Fields}
    {children : Option (List DocumentSymbol)} {symbol : DocumentSymbol}
    (read : ofFields? fields children = some symbol) :
    Fields.get? fields "range" = some (.range symbol.range) ∧
      Fields.get? fields "selectionRange" = some (.range symbol.selectionRange) := by
  unfold ofFields? at read
  split at read
  · rename_i hasRange hasSelection
    cases read
    exact ⟨Fields.get?_of_range? hasRange, Fields.get?_of_range? hasSelection⟩
  · contradiction

theorem SymbolInformation.location_of_ofFields? {fields : Fields} {symbol : SymbolInformation}
    (read : ofFields? fields = some symbol) :
    ∃ place, Fields.get? fields "location" = some place ∧
      Location.ofValue? place = some symbol.location := by
  unfold ofFields? at read
  split at read
  · rename_i hasLocation
    cases read
    exact Option.bind_eq_some_iff.mp hasLocation
  · contradiction

theorem WorkspaceEdit.readable_of_ofFields? {fields : Fields} {edit : WorkspaceEdit}
    (read : ofFields? fields = some edit) :
    Fields.Readable fields "changes" changes? ∧
      Fields.Readable fields "documentChanges" documentChanges? := by
  unfold ofFields? at read
  split at read
  · rename_i hasChanges hasDocumentChanges
    exact ⟨Fields.readable_of_maybe? hasChanges, Fields.readable_of_maybe? hasDocumentChanges⟩
  · contradiction

theorem SymbolPlace.ofValue?_location {value : Value} {location : Location}
    (read : Location.ofValue? value = some location) :
    SymbolPlace.ofValue? value = some (.location location) := by
  have isPlace := read
  unfold Location.ofValue? at isPlace
  split at isPlace
  · simp [SymbolPlace.ofValue?, read]
  · contradiction

theorem DocumentSymbol.part_name {value : Value} {symbol : DocumentSymbol}
    (read : ofValue? value = some symbol) : Returns (value.part "name") := by
  cases value with
  | record type fields =>
    unfold ofValue? at read
    split at read
    · rename_i isSymbol
      subst isSymbol
      exact ⟨_, Value.part_owned "DocumentSymbol" "name" (by decide) fields⟩
    · contradiction
  | _ => simp [ofValue?] at read

theorem Identifier.part_uri {value : Value} {identifier : Identifier}
    (read : ofValue? value = some identifier) : value.part "uri" = .ok (.str identifier.uri) := by
  cases value with
  | record type fields =>
    obtain ⟨uri, hasUri, rfl⟩ := Option.map_eq_some_iff.mp read
    exact Value.part_given (Fields.get?_of_text? hasUri)
  | _ => cases read

theorem TextDocumentEdit.fields_of_ofFields? {fields : Fields} {edit : TextDocumentEdit}
    (read : ofFields? fields = some edit) :
    ∃ document uri edits, Fields.get? fields "textDocument" = some document ∧
      document.part "uri" = .ok uri ∧ Fields.get? fields "edits" = some edits ∧
      TextEdit.list? edits = some edit.edits := by
  unfold ofFields? at read
  split at read
  · rename_i hasDocument hasEdits
    cases read
    obtain ⟨document, given, isDocument⟩ := Option.bind_eq_some_iff.mp hasDocument
    obtain ⟨edits, listed, areEdits⟩ := Option.bind_eq_some_iff.mp hasEdits
    exact ⟨document, _, edits, given, Identifier.part_uri isDocument, listed, areEdits⟩
  · contradiction

theorem CompletionItem.fields_of_regular? {value : Value} {item : CompletionItem}
    (read : regular? value = some item) :
    ∃ fields, value = .record "CompletionItem" fields ∧
      (CompletionEdit.ofValue ((Fields.get? fields "textEdit").getD .null)).isRegular = true ∧
      Fields.Readable fields "additionalTextEdits" TextEdit.list? := by
  obtain ⟨isItem, regular⟩ := Option.filter_eq_some_iff.mp read
  unfold ofValue? at isItem
  split at isItem
  · rename_i fields
    cases isItem
    obtain ⟨regularEdit, gone⟩ := Bool.and_eq_true_iff.mp regular
    refine ⟨fields, rfl, ?_, Fields.readable_of_take ?_⟩
    · cases given : Fields.get? fields "textEdit" with
      | none => rfl
      | some edit => simpa [ofFields, given] using regularEdit
    · rw [ofFields, Fields.get?_without _ _ (by decide)] at gone
      exact Option.isNone_iff_eq_none.mp gone
  · contradiction

theorem CompletionList.fields_of_ofFields? {fields : Fields} {list : CompletionList}
    (read : ofFields? fields = some list) :
    ∃ items, Fields.get? fields "items" = some (.list items) ∧
      (∀ item ∈ items, ∃ found, CompletionItem.regular? item = some found) ∧
      Fields.Readable fields "itemDefaults" CompletionDefaults.ofValue? := by
  unfold ofFields? at read
  split at read
  · rename_i hasItems hasDefaults
    obtain ⟨value, held, areItems⟩ := Option.bind_eq_some_iff.mp hasItems
    obtain ⟨items, rfl, each⟩ := Value.exists_of_list? areItems
    exact ⟨items, held, each, Fields.readable_of_maybe? hasDefaults⟩
  · contradiction

theorem InlayHint.fields_of_ofFields? {fields : Fields} {hint : InlayHint}
    (read : ofFields? fields = some hint) :
    Fields.get? fields "position" = some (.position hint.position) ∧
      (∃ label, Fields.get? fields "label" = some label ∧
        HintLabel.ofValue? label = some hint.label) ∧
      Fields.Readable fields "textEdits" TextEdit.list? := by
  unfold ofFields? at read
  split at read
  · rename_i hasPosition hasLabel hasEdits
    cases read
    obtain ⟨place, held, isPlace⟩ := Option.bind_eq_some_iff.mp hasPosition
    cases place <;> cases isPlace
    exact ⟨held, Option.bind_eq_some_iff.mp hasLabel, Fields.readable_of_maybe? hasEdits⟩
  · contradiction

theorem Diagnostic.fields_of_ofValue? {value : Value} {diagnostic : Diagnostic}
    (read : (ofValue? value).filter isRegular = some diagnostic) :
    ∃ fields, value = .record "Diagnostic" fields ∧
      Fields.get? fields "range" = some (.range diagnostic.range) ∧
      Fields.Readable fields "relatedInformation" RelatedInformation.list? := by
  obtain ⟨isDiagnostic, regular⟩ := Option.filter_eq_some_iff.mp read
  unfold ofValue? at isDiagnostic
  split at isDiagnostic
  · rename_i fields
    obtain ⟨range, hasRange, rfl⟩ := Option.map_eq_some_iff.mp isDiagnostic
    refine ⟨fields, rfl, Fields.get?_of_range? hasRange, Fields.readable_of_take ?_⟩
    rw [isRegular, Fields.get?_without _ _ (by decide)] at regular
    exact Option.isNone_iff_eq_none.mp regular
  · contradiction

/-! ### Items -/

/-- What looks like a structure that some rule looks into is one. -/
theorem Item.exists_of_regular {type : String} {fields : Fields} {α : Type} {read : Option α}
    {wrap : α → Item} (regular : (Item.ofValue (.record type fields)).isRegular = true)
    (kind : type ∈ Item.kinds) (reading : Item.ofValue? (.record type fields) = read.map wrap) :
    ∃ found, read = some found := by
  cases read with
  | some found => exact ⟨found, rfl⟩
  | none =>
    rw [Item.ofValue, reading] at regular
    simp [Item.isRegular, kind] at regular

namespace Item

/-- What a structure of a known kind is read as. -/
inductive Reads : Value → Item → Prop
  | range (span : Range) : Reads (.range span) (.range span)
  | location {value : Value} {place : Location} (read : Location.ofValue? value = some place) :
      Reads value (.location place)
  | locationLink {value : Value} {link : LocationLink}
      (read : LocationLink.ofValue? value = some link) : Reads value (.locationLink link)
  | documentSymbol {value : Value} {symbol : DocumentSymbol}
      (read : DocumentSymbol.ofValue? value = some symbol) : Reads value (.documentSymbol symbol)
  | symbolInformation {fields : Fields} {symbol : SymbolInformation}
      (read : SymbolInformation.ofFields? fields = some symbol) :
      Reads (.record "SymbolInformation" fields) (.symbolInformation symbol)
  | workspaceSymbol {fields : Fields} {symbol : WorkspaceSymbol}
      (read : WorkspaceSymbol.ofFields? fields = some symbol) :
      Reads (.record "WorkspaceSymbol" fields) (.workspaceSymbol symbol)
  | workspaceEdit {fields : Fields} {edit : WorkspaceEdit}
      (read : WorkspaceEdit.ofFields? fields = some edit) :
      Reads (.record "WorkspaceEdit" fields) (.workspaceEdit edit)
  | renamePlaceholder {fields : Fields} {placeholder : RenamePlaceholder}
      (read : RenamePlaceholder.ofFields? fields = some placeholder) :
      Reads (.record "PrepareRenamePlaceholder" fields) (.renamePlaceholder placeholder)
  | completionItem {value : Value} {item : CompletionItem}
      (read : CompletionItem.regular? value = some item) : Reads value (.completionItem item)
  | completionList {fields : Fields} {list : CompletionList}
      (read : CompletionList.ofFields? fields = some list) :
      Reads (.record "CompletionList" fields) (.completionList list)
  | hover {fields : Fields} {shown : Hover} (read : Hover.ofFields? fields = some shown) :
      Reads (.record "Hover" fields) (.hover shown)
  | inlayHint {fields : Fields} {hint : InlayHint} (read : InlayHint.ofFields? fields = some hint) :
      Reads (.record "InlayHint" fields) (.inlayHint hint)

theorem reads_of_ofValue? {value : Value} {item : Item} (read : ofValue? value = some item) :
    Reads value item := by
  unfold ofValue? at read
  split at read
  · cases read
    exact .range _
  · obtain ⟨place, isPlace, rfl⟩ := Option.map_eq_some_iff.mp read
    exact .location isPlace
  · obtain ⟨link, isLink, rfl⟩ := Option.map_eq_some_iff.mp read
    exact .locationLink isLink
  · obtain ⟨symbol, isSymbol, rfl⟩ := Option.map_eq_some_iff.mp read
    exact .documentSymbol isSymbol
  · obtain ⟨symbol, isSymbol, rfl⟩ := Option.map_eq_some_iff.mp read
    exact .symbolInformation isSymbol
  · obtain ⟨symbol, isSymbol, rfl⟩ := Option.map_eq_some_iff.mp read
    exact .workspaceSymbol isSymbol
  · obtain ⟨edit, isEdit, rfl⟩ := Option.map_eq_some_iff.mp read
    exact .workspaceEdit isEdit
  · obtain ⟨placeholder, isPlaceholder, rfl⟩ := Option.map_eq_some_iff.mp read
    exact .renamePlaceholder isPlaceholder
  · obtain ⟨item, isItem, rfl⟩ := Option.map_eq_some_iff.mp read
    exact .completionItem isItem
  · obtain ⟨list, isList, rfl⟩ := Option.map_eq_some_iff.mp read
    exact .completionList isList
  · obtain ⟨shown, isHover, rfl⟩ := Option.map_eq_some_iff.mp read
    exact .hover isHover
  · obtain ⟨hint, isHint, rfl⟩ := Option.map_eq_some_iff.mp read
    exact .inlayHint isHint
  · contradiction

theorem reads_of_ofValue {value : Value} {item : Item} (read : ofValue value = item)
    (known : ∀ other, item ≠ .other other) : Reads value item := by
  unfold ofValue at read
  cases found : ofValue? value with
  | none =>
    rw [found] at read
    exact absurd read.symm (known value)
  | some other =>
    rw [found] at read
    cases read
    exact reads_of_ofValue? found

theorem completion_of_ofValue {value : Value} (isCompletion : (ofValue value).isCompletion = true) :
    ∃ item, CompletionItem.regular? value = some item := by
  cases read : ofValue value with
  | completionItem item =>
    cases reads_of_ofValue read (by simp) with
    | completionItem isItem => exact ⟨item, isItem⟩
  | _ =>
    rw [read] at isCompletion
    contradiction

theorem hint_of_ofValue {value : Value} (isHint : (ofValue value).isHint = true) :
    ∃ fields hint, value = .record "InlayHint" fields ∧ InlayHint.ofFields? fields = some hint := by
  cases read : ofValue value with
  | inlayHint hint =>
    cases reads_of_ofValue read (by simp) with
    | inlayHint isHint => exact ⟨_, hint, rfl, isHint⟩
  | _ =>
    rw [read] at isHint
    contradiction

end Item

/-- Whether an item is a symbol of the workspace. -/
def Item.isWorkspaceSymbol : Item → Bool
  | symbolInformation _ => true
  | workspaceSymbol _ => true
  | _ => false

theorem Item.isRegularSymbol_of_isWorkspaceSymbol {item : Item}
    (symbol : item.isWorkspaceSymbol = true) : item.isRegularSymbol = true := by
  cases item with
  | symbolInformation | workspaceSymbol => rfl
  | _ => contradiction

/-! ### Answers -/

/-- Requests whose rule looks only into items of a kind that it knows. -/
def Method.isLenient : Method → Bool
  | .completion | .completionResolve | .inlayHint => false
  | _ => true

namespace Answer

variable {value : Value} {method : Method}

/-- The items of an answer are read one by one from the data it is read from. -/
theorem mem_items_ofValue (given : value.isNull = false) {item : Value}
    (member : item ∈ value.list?.getD [value]) : Item.ofValue item ∈ (ofValue value).items := by
  cases value with
  | null => contradiction
  | list items => exact List.mem_map_of_mem member
  | _ =>
    obtain rfl := List.mem_singleton.mp member
    exact List.mem_singleton_self _

theorem items_regular {answer : Answer} (lenient : method.isLenient = true)
    (regular : answer.isRegular method = true) : ∀ item ∈ answer.items, item.isRegular = true := by
  unfold isRegular at regular
  split at regular
  · simp [items]
  · contradiction
  · contradiction
  · contradiction
  · contradiction
  · contradiction
  · exact List.all_eq_true.mp regular

theorem item_regular (lenient : method.isLenient = true)
    (regular : (ofValue value).isRegular method = true) :
    (Item.ofValue value).isRegular = true := by
  cases value with
  | null | list items => rfl
  | _ => exact items_regular lenient regular _ (List.mem_singleton_self _)

theorem completions_of_regular {answer : Answer} (regular : answer.isRegular .completion = true) :
    (∃ list, answer = .one (.completionList list)) ∨
      ∀ item ∈ answer.items, item.isCompletion = true := by
  cases answer with
  | null => simp [items]
  | one item =>
    cases item with
    | completionList list => exact Or.inl ⟨list, rfl⟩
    | _ => exact Or.inr (List.all_eq_true.mp regular)
  | many items => exact Or.inr (List.all_eq_true.mp regular)

theorem completionList_of_ofValue {list : CompletionList}
    (read : ofValue value = .one (.completionList list)) :
    ∃ fields, value = .record "CompletionList" fields ∧
      CompletionList.ofFields? fields = some list := by
  have isList : Item.ofValue value = .completionList list := by
    cases value with
    | null | list items => contradiction
    | _ => exact Answer.one.inj read
  cases Item.reads_of_ofValue isList (by simp) with
  | completionList isList => exact ⟨_, rfl, isList⟩

theorem isRegular_completionResolve (item : Item) :
    (one item).isRegular .completionResolve = item.isCompletion := by
  cases item <;> rfl

theorem resolved_of_regular (given : value.isNull = false)
    (regular : (ofValue value).isRegular .completionResolve = true) :
    ∃ item, CompletionItem.regular? value = some item := by
  refine Item.completion_of_ofValue ?_
  cases value with
  | null | list items => contradiction
  | _ => exact (isRegular_completionResolve _).symm.trans regular

theorem hints_of_regular {answer : Answer} (regular : answer.isRegular .inlayHint = true) :
    ∀ item ∈ answer.items, item.isHint = true := by
  cases answer with
  | null => simp [items]
  | one item => cases item <;> simpa [isRegular, items] using regular
  | many items => exact List.all_eq_true.mp regular

end Answer

end LanguageBridge
