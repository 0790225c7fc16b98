import LanguageBridge.Proofs.Mapping.Places
import LanguageBridge.Proofs.Mapping.Typed
import LanguageBridge.Proofs.Mapping.WorkspaceEdits
import LanguageBridge.Proofs.Store.Anchoring

namespace LanguageBridge

namespace Store

/-! Whole answers, rule by rule. -/

variable {store : Store} {context : Context} {asked : String}

/-! ### Places in named documents -/

theorem mapLocation_uri {given mapped : Location} (ok : store.mapLocation given = .ok mapped) :
    mapped.uri = Alias.hostOf given.uri := by
  unfold mapLocation at ok
  unfold Alias.hostOf
  cases parsed : Alias.parse? given.uri with
  | none =>
    rw [parsed] at ok
    cases ok
    rfl
  | some source =>
    rw [parsed] at ok
    obtain ⟨range, _, rfl⟩ := Except.map_eq_ok ok
    rfl

theorem traced_locationLink (asking : Alias.parse? asked = some ⟨context.host, context.language⟩)
    {link mapped : LocationLink} (ok : store.mapLocationLink context link = .ok mapped) :
    store.Traced (link.places asked) (mapped.places context.host) := by
  obtain ⟨target, targetOk, ok⟩ := Except.bind_eq_ok ok
  obtain ⟨selection, selectionOk, ok⟩ := Except.bind_eq_ok ok
  have sameUri : selection.uri = target.uri := by
    rw [mapLocation_uri selectionOk, mapLocation_uri targetOk]
  have selected : store.mapLocation ⟨link.targetUri, link.targetSelectionRange⟩ =
      .ok ⟨target.uri, selection.range⟩ := by
    rw [selectionOk, ← sameUri]
  have targets := (Traced.of_location targetOk).append (Traced.of_location selected)
  unfold LocationLink.places
  cases given : link.originSelectionRange with
  | none =>
    rw [given] at ok
    cases ok
    exact targets.append (.nil _)
  | some range =>
    rw [given] at ok
    obtain ⟨origin, originOk, ok⟩ := Except.bind_eq_ok ok
    obtain ⟨found, rangeOk, rfl⟩ := Except.map_eq_ok originOk
    cases ok
    exact targets.append (traced_range asking rangeOk)

/-! ### Symbols -/

theorem mapSymbol_eq_ok {symbol mapped : DocumentSymbol}
    (ok : store.mapSymbol context symbol = .ok mapped) :
    ∃ range selectionRange,
      store.mapRange context.host context.language symbol.range = .ok range ∧
      store.mapRange context.host context.language symbol.selectionRange = .ok selectionRange ∧
      mapped = { symbol with
        range := range, selectionRange := selectionRange,
        children := mapChildren store context symbol.children } := by
  obtain ⟨name, kind, range, selectionRange, detail, children, rest⟩ := symbol
  unfold mapSymbol at ok
  split at ok
  · contradiction
  · rename_i own ownOk
    split at ok
    · contradiction
    · rename_i selected selectedOk
      cases ok
      exact ⟨own, selected, ownOk, selectedOk, rfl⟩

mutual

theorem traced_symbol (asking : Alias.parse? asked = some ⟨context.host, context.language⟩) :
    ∀ (symbol : DocumentSymbol) {mapped : DocumentSymbol},
      store.mapSymbol context symbol = .ok mapped →
        store.Traced (symbol.places asked) (mapped.places context.host)
  | ⟨_, _, range, selectionRange, _, children, _⟩, mapped, ok => by
      obtain ⟨own, selected, ownOk, selectedOk, rfl⟩ := mapSymbol_eq_ok ok
      exact ((traced_range asking ownOk).append (traced_range asking selectedOk)).append
        (traced_children asking children)

theorem traced_children (asking : Alias.parse? asked = some ⟨context.host, context.language⟩) :
    ∀ children : Option (List DocumentSymbol),
      store.Traced (DocumentSymbol.childrenPlaces asked children)
        (DocumentSymbol.childrenPlaces context.host (mapChildren store context children))
  | none => .nil _
  | some children => traced_symbolList asking children

theorem traced_symbolList (asking : Alias.parse? asked = some ⟨context.host, context.language⟩) :
    ∀ symbols : List DocumentSymbol,
      store.Traced (DocumentSymbol.listPlaces asked symbols)
        (DocumentSymbol.listPlaces context.host (mapSymbolList store context symbols))
  | [] => .nil _
  | symbol :: rest => by
      have later := traced_symbolList asking rest
      rw [mapSymbolList]
      cases ok : store.mapSymbol context symbol with
      | error fault => exact later.mono (List.subset_append_right _ _)
      | ok mapped => exact (traced_symbol asking symbol ok).append later

end

/-! ### Edits -/

theorem mapLocation_of_carried {uri : String} {edit kept : TextEdit}
    (keeps : store.carried uri edit = some kept) :
    store.mapLocation ⟨uri, edit.range⟩ = .ok ⟨Alias.hostOf uri, kept.range⟩ := by
  unfold carried at keeps
  unfold mapLocation Alias.hostOf
  cases parsed : Alias.parse? uri with
  | none =>
    rw [parsed] at keeps
    cases keeps
    rfl
  | some source =>
    rw [parsed] at keeps
    obtain ⟨range, ok, rfl⟩ := Option.map_eq_some_iff.mp keeps
    simp only [Except.eq_ok_of_toOption ok, Except.map]

theorem traced_gather (edits : List (String × List TextEdit)) (target : String) :
    store.Traced (changePlaces edits) (TextEdit.places target (store.gather edits target)) := by
  intro place member
  obtain ⟨kept, gathered, rfl⟩ := List.mem_map.mp member
  obtain ⟨edited, listed, gathered⟩ := List.mem_flatMap.mp gathered
  split at gathered
  · rename_i same
    obtain ⟨edit, inEdits, keeps⟩ := List.mem_filterMap.mp gathered
    refine ⟨⟨edited.1, edit.range⟩, ?_, same ▸ mapLocation_of_carried keeps⟩
    exact List.mem_flatMap.mpr ⟨edited, listed, List.mem_map.mpr ⟨edit, inEdits, rfl⟩⟩
  · contradiction

theorem traced_mapChanges (changes : List (String × List TextEdit)) :
    store.Traced (changePlaces changes) (changePlaces (store.mapChanges changes)) := by
  intro place member
  rw [mapChanges_eq] at member
  obtain ⟨entry, listed, inEntry⟩ := List.mem_flatMap.mp member
  obtain ⟨target, _, rfl⟩ := List.mem_map.mp listed
  exact traced_gather changes target place inEntry

theorem traced_mapDocumentChanges (changes : List DocumentChange) :
    store.Traced (changes.flatMap DocumentChange.places)
      ((store.mapDocumentChanges changes).flatMap DocumentChange.places) := by
  have edited : changePlaces (changes.filterMap DocumentChange.edited?) ⊆
      changes.flatMap DocumentChange.places := by
    intro place member
    obtain ⟨entry, listed, inEntry⟩ := List.mem_flatMap.mp member
    obtain ⟨change, inChanges, isEdit⟩ := List.mem_filterMap.mp listed
    refine List.mem_flatMap.mpr ⟨change, inChanges, ?_⟩
    cases change <;> cases isEdit
    exact inEntry
  intro place member
  rw [mapDocumentChanges_eq] at member
  obtain ⟨change, listed, inChange⟩ := List.mem_flatMap.mp member
  obtain ⟨first, _, rfl⟩ := List.mem_map.mp listed
  cases first with
  | edit edit =>
    rw [completed_edit, DocumentChange.places, Identifier.housed_uri] at inChange
    exact (traced_gather _ _).mono edited place inChange
  | create | delete | rename | other => contradiction

theorem traced_workspaceEdit (edit : WorkspaceEdit) :
    store.Traced edit.places (store.mapWorkspaceEdit edit).places := by
  unfold WorkspaceEdit.places
  rw [changes_mapWorkspaceEdit, documentChanges_mapWorkspaceEdit]
  exact (traced_mapChanges _).append (traced_mapDocumentChanges _)

/-! ### Completions -/

section

variable (asking : Alias.parse? asked = some ⟨context.host, context.language⟩)
include asking

theorem traced_completionEdit {edit mapped : CompletionEdit}
    (ok : store.mapCompletionEdit context edit = .ok mapped) :
    store.Traced (edit.places asked) (mapped.places context.host) := by
  cases edit with
  | plain edit =>
    obtain ⟨found, editOk, rfl⟩ := Except.map_eq_ok ok
    exact traced_edit asking editOk
  | insertReplace insert replace rest =>
    obtain ⟨inserted, insertOk, ok⟩ := Except.bind_eq_ok ok
    obtain ⟨replaced, replaceOk, ok⟩ := Except.bind_eq_ok ok
    cases ok
    exact (traced_range asking insertOk).append (traced_range asking replaceOk)
  | other value =>
    cases ok
    exact .nil _

theorem traced_completionItem {item mapped : CompletionItem}
    (ok : store.mapCompletionItem context item = .ok mapped) :
    store.Traced (item.places asked) (mapped.places context.host) := by
  obtain ⟨edit, editOk, ok⟩ := Except.bind_eq_ok ok
  obtain ⟨additional, additionalOk, ok⟩ := Except.bind_eq_ok ok
  cases ok
  refine Traced.append ?_ (traced_optionalEdits asking additionalOk)
  rcases mapOptional_eq_ok editOk with ⟨given, rfl⟩ | ⟨given, found, isGiven, rfl, foundOk⟩
  · exact .nil _
  · simpa [isGiven] using traced_completionEdit asking foundOk

theorem traced_editRange {range mapped : EditRange} (ok : store.mapEditRange context range = .ok mapped) :
    store.Traced (range.places asked) (mapped.places context.host) := by
  cases range with
  | range range =>
    obtain ⟨found, rangeOk, rfl⟩ := Except.map_eq_ok ok
    exact traced_range asking rangeOk
  | insertReplace insert replace rest =>
    obtain ⟨inserted, insertOk, ok⟩ := Except.bind_eq_ok ok
    obtain ⟨replaced, replaceOk, ok⟩ := Except.bind_eq_ok ok
    cases ok
    exact (traced_range asking insertOk).append (traced_range asking replaceOk)

theorem traced_completionList (list : CompletionList) :
    store.Traced (list.places asked) (CompletionList.places context.host { list with
      items := list.items.filterMap fun item => (store.mapCompletionItem context item).toOption
      defaults := list.defaults.map (store.mapDefaults context) }) := by
  refine Traced.append ?_ ?_
  · exact Traced.filterMap fun item _ mapped kept =>
      traced_completionItem asking (Except.eq_ok_of_toOption kept)
  · cases given : list.defaults.bind CompletionDefaults.editRange with
    | none =>
      have dropped : (list.defaults.map (store.mapDefaults context)).bind
          CompletionDefaults.editRange = none := by
        cases defaults : list.defaults with
        | none => rfl
        | some defaults => simp_all [mapDefaults]
      rw [dropped]
      exact .nil _
    | some range =>
      obtain ⟨defaults, listed, hasRange⟩ := Option.bind_eq_some_iff.mp given
      simp only [listed, Option.map_some, Option.bind_some, mapDefaults, hasRange]
      cases ok : store.mapEditRange context range with
      | error fault => exact .nil _
      | ok mapped =>
        simpa [Except.toOption] using traced_editRange asking ok

end

/-! ### Hints and diagnostics -/

theorem traced_labelParts {parts mapped : List LabelPart}
    (ok : store.mapLabelParts parts = .ok mapped) :
    store.Traced (HintLabel.parts parts).places (HintLabel.parts mapped).places := by
  induction parts generalizing mapped with
  | nil =>
    cases ok
    exact .nil _
  | cons part rest ih =>
    unfold mapLabelParts at ok
    split at ok
    · contradiction
    · rename_i first firstOk
      obtain ⟨others, restOk, rfl⟩ := Except.map_eq_ok ok
      obtain ⟨location, locationOk, rfl⟩ := Except.map_eq_ok firstOk
      refine Traced.append ?_ (ih restOk)
      rcases mapOptional_eq_ok locationOk with ⟨given, rfl⟩ | ⟨given, found, isGiven, rfl, foundOk⟩
      · exact .nil _
      · simpa [isGiven] using Traced.of_location foundOk

theorem traced_label {label mapped : HintLabel} (ok : store.mapLabel label = .ok mapped) :
    store.Traced label.places mapped.places := by
  cases label with
  | parts parts =>
    obtain ⟨found, partsOk, rfl⟩ := Except.map_eq_ok ok
    exact traced_labelParts partsOk
  | other value =>
    cases ok
    exact .nil _

theorem traced_hint (asking : Alias.parse? asked = some ⟨context.host, context.language⟩)
    {hint mapped : InlayHint} (ok : store.mapHint context hint = .ok mapped) :
    store.Traced (hint.places asked) (mapped.places context.host) := by
  obtain ⟨position, positionOk, ok⟩ := Except.bind_eq_ok ok
  obtain ⟨edits, editsOk, ok⟩ := Except.bind_eq_ok ok
  obtain ⟨label, labelOk, ok⟩ := Except.bind_eq_ok ok
  cases ok
  exact ((traced_range asking (mapRange_of_mapPosition positionOk)).append
    (traced_optionalEdits asking editsOk)).append (traced_label labelOk)

theorem traced_related {related mapped : List RelatedInformation}
    (ok : store.mapRelated related = .ok mapped) :
    store.Traced (related.map RelatedInformation.location)
      (mapped.map RelatedInformation.location) := by
  induction related generalizing mapped with
  | nil =>
    cases ok
    exact .nil _
  | cons first rest ih =>
    unfold mapRelated at ok
    split at ok
    · contradiction
    · rename_i location locationOk
      obtain ⟨others, restOk, rfl⟩ := Except.map_eq_ok ok
      exact (Traced.of_location locationOk).append (ih restOk)

theorem traced_diagnostic {host language : String}
    (asking : Alias.parse? asked = some ⟨host, language⟩) {diagnostic mapped : Diagnostic}
    (ok : store.mapDiagnostic host language diagnostic = .ok mapped) :
    store.Traced (diagnostic.places asked) (mapped.places host) := by
  obtain ⟨range, rangeOk, ok⟩ := Except.bind_eq_ok ok
  obtain ⟨related, relatedOk, ok⟩ := Except.bind_eq_ok ok
  cases ok
  refine (traced_range asking rangeOk).append ?_
  rcases mapOptional_eq_ok relatedOk with ⟨given, rfl⟩ | ⟨given, found, isGiven, rfl, foundOk⟩
  · exact .nil _
  · simpa [isGiven] using traced_related foundOk

theorem traced_publication {uri : String} {source : Alias} {diagnostics mapped : List Diagnostic}
    (published : store.mapPublication? uri diagnostics = some (source, mapped)) :
    store.Traced (diagnostics.flatMap (Diagnostic.places uri))
      (mapped.flatMap (Diagnostic.places source.host)) := by
  obtain ⟨found, asking, same⟩ := Option.map_eq_some_iff.mp published
  cases same
  exact Traced.filterMap fun diagnostic _ kept isKept =>
    traced_diagnostic asking (Except.eq_ok_of_toOption isKept)

/-! ### One rule per request -/

/-- What the rules for requests about a document can make of an item. -/
inductive Becomes (store : Store) (context : Context) : Item → Item → Prop where
  | location {place found : Location} (ok : store.mapLocation place = .ok found) :
      Becomes store context (.location place) (.location found)
  | locationLink {link found : LocationLink} (ok : store.mapLocationLink context link = .ok found) :
      Becomes store context (.locationLink link) (.locationLink found)
  | documentSymbol {symbol found : DocumentSymbol} (ok : store.mapSymbol context symbol = .ok found) :
      Becomes store context (.documentSymbol symbol) (.documentSymbol found)
  | symbolInformation {symbol : SymbolInformation} {found : Location}
      (ok : store.mapLocation symbol.location = .ok found) :
      Becomes store context (.symbolInformation symbol)
        (.symbolInformation { symbol with location := found })
  | workspaceEdit (edit : WorkspaceEdit) :
      Becomes store context (.workspaceEdit edit) (.workspaceEdit (store.mapWorkspaceEdit edit))
  | range {range found : Range} (ok : store.mapRange context.host context.language range = .ok found) :
      Becomes store context (.range range) (.range found)
  | renamePlaceholder {placeholder : RenamePlaceholder} {found : Range}
      (ok : store.mapRange context.host context.language placeholder.range = .ok found) :
      Becomes store context (.renamePlaceholder placeholder)
        (.renamePlaceholder { placeholder with range := found })
  | completionItem {item found : CompletionItem}
      (ok : store.mapCompletionItem context item = .ok found) :
      Becomes store context (.completionItem item) (.completionItem found)
  | completionList (list : CompletionList) :
      Becomes store context (.completionList list) (.completionList { list with
        items := list.items.filterMap fun item => (store.mapCompletionItem context item).toOption
        defaults := list.defaults.map (store.mapDefaults context) })
  | hover (hover : Hover) :
      Becomes store context (.hover hover) (.hover { hover with
        range := hover.range.bind fun range =>
          (store.mapRange context.host context.language range).toOption })
  | inlayHint {hint found : InlayHint} (ok : store.mapHint context hint = .ok found) :
      Becomes store context (.inlayHint hint) (.inlayHint found)
  | other (value : Value) : Becomes store context (.other value) (.other value)

theorem Becomes.traced (asking : Alias.parse? asked = some ⟨context.host, context.language⟩)
    {item mapped : Item} (becomes : store.Becomes context item mapped) :
    store.Traced (item.places asked) (mapped.places context.host) := by
  cases becomes with
  | location ok => exact .of_location ok
  | locationLink ok => exact traced_locationLink asking ok
  | documentSymbol ok => exact traced_symbol asking _ ok
  | symbolInformation ok => exact .of_location ok
  | workspaceEdit edit => exact traced_workspaceEdit edit
  | range ok => exact traced_range asking ok
  | renamePlaceholder ok => exact traced_range asking ok
  | completionItem ok => exact traced_completionItem asking ok
  | completionList list => exact traced_completionList asking list
  | hover hover => exact traced_optionalRange asking hover.range
  | inlayHint ok => exact traced_hint asking ok
  | other value => exact .nil _

theorem becomes_locationItem {item mapped : Item} {method : Method}
    (leading : method ∈ Method.leading) (fits : item.suits method = true)
    (ok : store.mapLocationItem context item = .ok mapped) : store.Becomes context item mapped := by
  cases item with
  | location place =>
    obtain ⟨found, placeOk, rfl⟩ := Except.map_eq_ok ok
    exact .location placeOk
  | locationLink link =>
    obtain ⟨found, linkOk, rfl⟩ := Except.map_eq_ok ok
    exact .locationLink linkOk
  | other value =>
    cases ok
    exact .other value
  | _ =>
    simp only [Method.leading, List.mem_cons, List.not_mem_nil, or_false] at leading
    rcases leading with rfl | rfl | rfl | rfl | rfl <;> simp [Item.suits] at fits

theorem becomes_symbolItem {item mapped : Item} (fits : item.suits .documentSymbol = true)
    (ok : store.mapSymbolItem context item = .ok mapped) : store.Becomes context item mapped := by
  cases item with
  | documentSymbol symbol =>
    obtain ⟨found, symbolOk, rfl⟩ := Except.map_eq_ok ok
    exact .documentSymbol symbolOk
  | symbolInformation symbol =>
    obtain ⟨found, placeOk, rfl⟩ := Except.map_eq_ok ok
    exact .symbolInformation placeOk
  | other value =>
    cases ok
    exact .other value
  | _ => simp [Item.suits, Method.leading] at fits

theorem becomes_renameItem {item : Item} (fits : item.suits .rename = true) :
    store.Becomes context item (store.mapRenameItem item) := by
  cases item with
  | workspaceEdit edit => exact .workspaceEdit edit
  | other value => exact .other value
  | _ => simp [Item.suits, Method.leading] at fits

theorem becomes_completionListItem {item kept : Item} (fits : item.isCompletion = true)
    (keeps : store.mapCompletionListItem context item = some kept) :
    store.Becomes context item kept := by
  cases item with
  | completionItem completion =>
    obtain ⟨mapped, found, rfl⟩ := Option.map_eq_some_iff.mp keeps
    exact .completionItem (Except.eq_ok_of_toOption found)
  | _ => contradiction

theorem becomes_hintItem {item kept : Item} (fits : item.isHint = true)
    (keeps : store.mapHintItem context item = some kept) : store.Becomes context item kept := by
  cases item with
  | inlayHint hint =>
    unfold mapHintItem at keeps
    simp only at keeps
    split at keeps
    · contradiction
    · rename_i mapped ok
      split at keeps
      · cases keeps
        exact .inlayHint ok
      · contradiction
  | _ => contradiction

theorem traced_workspaceSymbol {item mapped : Item} (fits : item.suitsWorkspace = true)
    (ok : store.mapWorkspaceSymbol item = .ok mapped) (asked host : String) :
    store.Traced (item.places asked) (mapped.places host) := by
  cases item with
  | symbolInformation symbol =>
    obtain ⟨found, placeOk, rfl⟩ := Except.map_eq_ok ok
    exact .of_location placeOk
  | workspaceSymbol symbol =>
    unfold mapWorkspaceSymbol at ok
    simp only at ok
    split at ok
    · rename_i location isLocation
      obtain ⟨found, placeOk, rfl⟩ := Except.map_eq_ok ok
      simpa [Item.places, isLocation, SymbolPlace.places] using Traced.of_location placeOk
    · cases ok
      exact .nil _
  | other value =>
    cases ok
    exact .nil _
  | _ => contradiction

end Store

theorem Answer.suits_items {answer : Answer} {method : Method} (fits : answer.suits method = true) :
    answer.isRegular method = true ∧ ∀ item ∈ answer.items, item.suits method = true := by
  obtain ⟨regular, shape⟩ := Bool.and_eq_true_iff.mp fits
  refine ⟨regular, ?_⟩
  cases answer with
  | null => simp [items]
  | one item => simpa [items] using shape
  | many items =>
    simp only [Bool.and_eq_true, List.all_eq_true] at shape
    exact shape.2

namespace Store

variable {store : Store} {context : Context} {asked : String}

/-- Everything in an answer that is brought back comes from an item of the answer. -/
def ComesFrom (store : Store) (context : Context) (answer mapped : Answer) : Prop :=
  ∀ kept ∈ mapped.items, ∃ item ∈ answer.items, store.Becomes context item kept

namespace ComesFrom

theorem null (answer : Answer) : store.ComesFrom context answer .null :=
  fun _ => nofun

theorem one {item kept : Item} (becomes : store.Becomes context item kept) :
    store.ComesFrom context (.one item) (.one kept) := by
  intro found member
  rw [List.mem_singleton.mp member]
  exact ⟨item, List.mem_singleton_self _, becomes⟩

theorem filterMap {answer : Answer} {keep : Item → Option Item}
    (each : ∀ item ∈ answer.items, ∀ kept, keep item = some kept → store.Becomes context item kept) :
    store.ComesFrom context answer (.many (answer.items.filterMap keep)) := by
  intro kept member
  obtain ⟨item, inItems, keeps⟩ := List.mem_filterMap.mp member
  exact ⟨item, inItems, each item inItems kept keeps⟩

theorem restore {answer : Answer} {keep : Item → Option Item}
    (each : ∀ item ∈ answer.items, ∀ kept, keep item = some kept → store.Becomes context item kept) :
    store.ComesFrom context answer (answer.restore (answer.items.filterMap keep)) := by
  intro kept member
  refine filterMap each kept ?_
  unfold Answer.restore at member
  split at member
  · exact member
  · contradiction
  · rename_i isKept
    rw [Answer.items, isKept, List.mem_singleton.mp member]
    exact List.mem_cons_self

end ComesFrom

theorem comesFrom_mapCompletions {answer : Answer} (regular : answer.isRegular .completion = true) :
    store.ComesFrom context answer (store.mapCompletions context answer) := by
  unfold mapCompletions
  split
  · rename_i list
    exact .one (.completionList list)
  · rename_i other
    rcases Answer.completions_of_regular regular with ⟨list, isList⟩ | completions
    · exact absurd isList (other list)
    · exact .filterMap fun item member kept keeps =>
        becomes_completionListItem (completions item member) keeps

theorem comesFrom_mapResolvedCompletion {answer : Answer}
    (regular : answer.isRegular .completionResolve = true) :
    store.ComesFrom context answer (store.mapResolvedCompletion context answer) := by
  unfold mapResolvedCompletion
  split
  · split
    · rename_i ok
      exact .one (.completionItem ok)
    · exact .null _
  · rename_i plain
    cases answer with
    | null => exact .null _
    | many items => contradiction
    | one item =>
      cases item with
      | completionItem completion => exact absurd rfl (plain completion)
      | _ => contradiction

theorem comesFrom_mapHover {item : Item} (fits : item.suits .hover = true) :
    store.ComesFrom context (.one item) (store.mapHover context (.one item)) := by
  cases item with
  | hover hover => exact .one (.hover hover)
  | other value => exact .one (.other value)
  | _ => simp [Item.suits, Method.leading] at fits

theorem comesFrom_mapRenameProposal {item : Item} (fits : item.suits .prepareRename = true) :
    store.ComesFrom context (.one item) (store.mapRenameProposal context (.one item)) := by
  cases item with
  | range range =>
    simp only [mapRenameProposal]
    split
    · rename_i ok
      exact .one (.range ok)
    · exact .null _
  | renamePlaceholder placeholder =>
    simp only [mapRenameProposal]
    split
    · rename_i ok
      exact .one (.renamePlaceholder ok)
    · exact .null _
  | other value => exact .one (.other value)
  | _ => simp [Item.suits, Method.leading] at fits

theorem comesFrom_mapAnswer {answer : Answer} (fits : answer.suits context.method = true) :
    store.ComesFrom context answer (store.mapAnswer context answer) := by
  obtain ⟨regular, kinds⟩ := Answer.suits_items fits
  have leading : context.method ∈ Method.leading →
      store.ComesFrom context answer (store.mapLocations context answer) :=
    fun leading => .restore fun item member kept keeps =>
      becomes_locationItem leading (kinds item member) (Except.eq_ok_of_toOption keeps)
  have single : context.method ∈ [.hover, .prepareRename] → ∀ items, answer ≠ .many items := by
    rintro alone items rfl
    simp only [Answer.suits, Bool.and_eq_true, decide_eq_true_eq] at fits
    exact fits.2.1 alone
  unfold mapAnswer
  cases method : context.method with
  | definition | typeDefinition | implementation | declaration | references =>
    exact leading (by simp [method, Method.leading])
  | documentSymbol =>
    exact .restore fun item member kept keeps =>
      becomes_symbolItem (method ▸ kinds item member) (Except.eq_ok_of_toOption keeps)
  | rename =>
    simp only [mapRename, ← List.filterMap_eq_map]
    refine .restore fun item member kept keeps => ?_
    cases keeps
    exact becomes_renameItem (method ▸ kinds item member)
  | prepareRename =>
    cases answer with
    | null => exact .null _
    | one item => exact comesFrom_mapRenameProposal (method ▸ kinds item (by simp [Answer.items]))
    | many items => exact absurd rfl (single (by simp [method]) items)
  | completion => exact comesFrom_mapCompletions (method ▸ regular)
  | completionResolve => exact comesFrom_mapResolvedCompletion (method ▸ regular)
  | hover =>
    cases answer with
    | null => exact .null _
    | one item => exact comesFrom_mapHover (method ▸ kinds item (by simp [Answer.items]))
    | many items => exact absurd rfl (single (by simp [method]) items)
  | inlayHint =>
    exact .filterMap fun item member kept keeps =>
      becomes_hintItem (Answer.hints_of_regular (method ▸ regular) item member) keeps
  | signatureHelp | workspaceSymbol | other name =>
    intro item member
    have fits := kinds item member
    rw [method] at fits
    refine ⟨item, member, ?_⟩
    cases item with
    | other value => exact .other value
    | _ => simp [Item.suits, Method.leading] at fits

theorem traced_mapAnswer (asking : Alias.parse? asked = some ⟨context.host, context.language⟩)
    {answer : Answer} (fits : answer.suits context.method = true) :
    store.Traced (answer.places asked) ((store.mapAnswer context answer).places context.host) := by
  intro place member
  obtain ⟨kept, isKept, inKept⟩ := List.mem_flatMap.mp member
  obtain ⟨item, inItems, becomes⟩ := comesFrom_mapAnswer fits kept isKept
  obtain ⟨source, inItem, ok⟩ := becomes.traced asking place inKept
  exact ⟨source, List.mem_flatMap_of_mem inItems inItem, ok⟩

/-! ### Where the places of an answer lie -/

/-- A place in a real document stays as it is. One in a synthetic document becomes a place of the
host, where the language of the document is. -/
def Brought (store : Store) (given mapped : Location) : Prop :=
  match Alias.parse? given.uri with
  | none => mapped = given
  | some source =>
    mapped.uri = source.host ∧ store.Anchored source.host source.language mapped.range ∧
      Carried given.range mapped.range

def AllBrought (store : Store) (given mapped : List Location) : Prop :=
  ∀ place ∈ mapped, ∃ source ∈ given, store.Brought source place

variable {settings : Store}

theorem Traced.allBrought
    (grounded : ∀ uri host, store.hosts.get? uri = some host → host.Grounded settings uri)
    {given mapped : List Location} (traced : store.Traced given mapped) :
    store.AllBrought given mapped := by
  intro place member
  obtain ⟨source, inGiven, ok⟩ := traced place member
  refine ⟨source, inGiven, ?_⟩
  unfold mapLocation at ok
  unfold Brought
  cases parsed : Alias.parse? source.uri with
  | none =>
    rw [parsed] at ok
    cases ok
    rfl
  | some found =>
    rw [parsed] at ok
    obtain ⟨range, rangeOk, rfl⟩ := Except.map_eq_ok ok
    exact ⟨rfl, mapRange_anchored (grounded found.host) rangeOk⟩

/-- Whatever store an answer meets when it arrives, a range that can be mapped lands in chunks of its
language, with the same columns and in the same order. So every place in the answer to a request, in
published diagnostics, in symbols of the workspace and in workspace edits is one of a real document,
as the child server gave it, or lies where the language of its document is. -/
theorem translated_places_anchored {padding : Padding} {names : LanguageNames}
    {rules : Option (List Rule)} {history : List StoreStep}
    (reached : Reached apply Anything (fresh padding names rules) history store) :
    (∀ uri language range mapped, store.mapRange uri language range = .ok mapped →
      store.Anchored uri language mapped ∧ Carried range mapped) ∧
    (∀ (context : Context) (answer mapped : Answer),
      Alias.encode context.host context.language = .ok context.aliasUri →
      context.isRegular = true → answer.suits context.method = true →
      (store.bringBack context answer).1 = .ok mapped →
        store.AllBrought (answer.places context.aliasUri) (mapped.places context.host)) ∧
    (∀ uri source diagnostics mapped,
      store.mapPublication? uri diagnostics = some (source, mapped) →
        store.AllBrought (diagnostics.flatMap (Diagnostic.places uri))
          (mapped.flatMap (Diagnostic.places source.host))) ∧
    (∀ items : List Item, (∀ item ∈ items, item.suitsWorkspace = true) →
      store.AllBrought (items.flatMap (Item.places ""))
        ((store.mapWorkspaceSymbols items).flatMap (Item.places ""))) ∧
    ∀ edit, store.AllBrought edit.places (store.mapWorkspaceEdit edit).places := by
  have grounded : ∀ uri host, store.hosts.get? uri = some host →
      host.Grounded (fresh padding names rules) uri :=
    fun uri host found => reached_grounded reached rfl found
  refine ⟨?_, ?_, ?_, ?_, ?_⟩
  · intro uri language range mapped ok
    exact mapRange_anchored (grounded uri) ok
  · intro context answer mapped encoded regular fits ok
    refine Traced.allBrought grounded ?_
    have asking := Alias.parse?_encode encoded
    rw [bringBack, if_pos (by simp [(Answer.suits_items fits).1, regular])] at ok
    cases ok
    cases answer with
    | null => exact .nil _
    | one item => exact traced_mapAnswer asking fits
    | many items => exact traced_mapAnswer asking fits
  · intro uri source diagnostics mapped published
    exact (traced_publication published).allBrought grounded
  · intro items fits
    refine Traced.allBrought grounded (Traced.filterMap fun item member kept keeps => ?_)
    exact traced_workspaceSymbol (fits item member) (Except.eq_ok_of_toOption keeps) "" ""
  · intro edit
    exact (traced_workspaceEdit edit).allBrought grounded

/-- A host that was edited while a request was under way. The definition that comes back is the whole
of a chunk, up to the start of the line behind it, and the chunk stands two lines further down now. -/
theorem translated_definition_anchored :
    ∃ history store, Reached apply Anything (fresh .compact .standard none) history store ∧
      ∃ context answer mapped,
        Alias.encode context.host context.language = .ok context.aliasUri ∧
        context.isRegular = true ∧ answer.suits context.method = true ∧
        (store.bringBack context answer).1 = .ok mapped ∧
        answer.places context.aliasUri = [⟨"otter://h/python", ⟨⟨0, 4⟩, ⟨1, 0⟩⟩⟩] ∧
        mapped.places context.host = [⟨"h", ⟨⟨3, 4⟩, ⟨4, 0⟩⟩⟩] ∧
        store.AllBrought (answer.places context.aliasUri) (mapped.places context.host) ∧
        store.mapRange "h" "python" ⟨⟨0, 4⟩, ⟨1, 0⟩⟩ = .ok ⟨⟨3, 4⟩, ⟨4, 0⟩⟩ ∧
        store.Anchored "h" "python" ⟨⟨3, 4⟩, ⟨4, 0⟩⟩ := by
  let opening : StoreStep := .openHost "h" "```python\nx = 1\n```" none
  let edit : StoreStep := .update "h" "\n\n```python\nx = 1\n```" none
  have reached : Reached apply Anything (fresh .compact .standard none) [edit, opening]
      (((fresh .compact .standard none).apply opening).apply edit) :=
    .step (.step .start opening trivial) edit trivial
  let context : Context :=
    { id := 1, method := .definition, host := "h", aliasUri := "otter://h/python"
      language := "python"
      params := .document
        { type := "DefinitionParams", document := { uri := "otter://h/python" }
          position := some ⟨0, 0⟩ } }
  let answer : Answer := .one (.location ⟨"otter://h/python", ⟨⟨0, 4⟩, ⟨1, 0⟩⟩⟩)
  let mapped : Answer := .one (.location ⟨"h", ⟨⟨3, 4⟩, ⟨4, 0⟩⟩⟩)
  have encoded : Alias.encode context.host context.language = .ok context.aliasUri := by cbv
  have regular : context.isRegular = true := by cbv
  have fits : answer.suits context.method = true := by cbv
  have ok : ((((fresh .compact .standard none).apply opening).apply edit).bringBack context
      answer).1 = .ok mapped := by cbv
  have rangeOk : (((fresh .compact .standard none).apply opening).apply edit).mapRange "h" "python"
      ⟨⟨0, 4⟩, ⟨1, 0⟩⟩ = .ok ⟨⟨3, 4⟩, ⟨4, 0⟩⟩ := by cbv
  have sound := translated_places_anchored reached
  exact ⟨_, _, reached, context, answer, mapped, encoded, regular, fits, ok, rfl, rfl,
    sound.2.1 context answer mapped encoded regular fits ok, rangeOk, (sound.1 _ _ _ _ rangeOk).1⟩

end Store

end LanguageBridge
