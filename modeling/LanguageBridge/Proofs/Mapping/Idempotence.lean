import LanguageBridge.Proofs.Mapping.Independence
import LanguageBridge.Proofs.Mapping.Names

namespace LanguageBridge

/-! Answers about real documents. What names real documents only is left as it is, so an answer that has
been translated is not changed by translating it once more. The exception is a list of changes that
edits one document in several places: its edits are brought together, also those of a real document. -/

/-! ### Real names -/

namespace Alias

variable {uri : String}

theorem parse?_of_real (real : isAlias uri = false) : parse? uri = none := by
  simpa [isAlias] using real

theorem rooted_iff : Rooted uri ↔ ((parse? uri).all fun source => !isAlias source.host) = true := by
  unfold Rooted
  cases parse? uri with
  | none => simp
  | some source => simp

instance : DecidablePred Rooted :=
  fun _ => decidable_of_iff _ rooted_iff.symm

theorem hostOf_of_real (real : isAlias uri = false) : hostOf uri = uri := by
  rw [hostOf, parse?_of_real real]

end Alias

/-- The edits listed under the name of a document. -/
def editsOf (edits : List (String × List TextEdit)) (uri : String) : List TextEdit :=
  edits.flatMap fun edited => if edited.1 = uri then edited.2 else []

theorem editsOf_eq_nil {edits : List (String × List TextEdit)} {uri : String}
    (absent : uri ∉ edits.map Prod.fst) : editsOf edits uri = [] := by
  refine List.flatMap_eq_nil_iff.mpr fun edited member => if_neg fun same => absent ?_
  exact same ▸ List.mem_map_of_mem member

theorem editsOf_of_nodup {edits : List (String × List TextEdit)}
    (distinct : (edits.map Prod.fst).Nodup) {edited : String × List TextEdit}
    (member : edited ∈ edits) : editsOf edits edited.1 = edited.2 := by
  induction edits with
  | nil => contradiction
  | cons first rest ih =>
    have passed : ∀ uri, editsOf (first :: rest) uri =
        (if first.1 = uri then first.2 else []) ++ editsOf rest uri := fun _ => List.flatMap_cons
    obtain ⟨fresh, later⟩ := List.nodup_cons.mp distinct
    rw [passed]
    rcases List.mem_cons.mp member with rfl | inRest
    · rw [if_pos rfl, editsOf_eq_nil fresh, List.append_nil]
    · have apart : first.1 ≠ edited.1 := fun same => fresh (same ▸ List.mem_map_of_mem inRest)
      rw [if_neg apart, List.nil_append, ih later inRest]

/-- All edits of a document at the place of the first, and everything else where it was. -/
def DocumentChange.joined (changes : List DocumentChange) : List DocumentChange :=
  (changes.eraseDupsBy sameTarget).map (withEdits (editsOf (changes.filterMap edited?)))

theorem eraseDups_of_nodup {names : List String} (distinct : names.Nodup) :
    names.eraseDups = names := by
  induction names using List.reverseRecOn with
  | nil => rfl
  | append_singleton names name ih =>
    obtain ⟨before, -, apart⟩ := List.nodup_append.mp distinct
    rw [eraseDups_snoc, ih before, if_neg]
    exact fun known => apart name known name (List.mem_singleton_self _) rfl

namespace Store

variable {store : Store}

/-! ### Edits of real documents -/

theorem carried_of_real {uri : String} (real : Alias.isAlias uri = false) :
    store.carried uri = some := by
  funext edit
  rw [carried, Alias.parse?_of_real real]

theorem gather_of_real {edits : List (String × List TextEdit)}
    (real : ∀ uri ∈ edits.map Prod.fst, Alias.isAlias uri = false) (target : String) :
    store.gather edits target = editsOf edits target := by
  refine List.flatMap_congr fun edited member => ?_
  have isReal := real edited.1 (List.mem_map_of_mem member)
  rw [Alias.hostOf_of_real isReal, carried_of_real isReal, List.filterMap_some]

theorem byHost_of_real {edits : List (String × List TextEdit)}
    (real : ∀ uri ∈ edits.map Prod.fst, Alias.isAlias uri = false)
    (distinct : (edits.map Prod.fst).Nodup) : store.byHost edits = edits := by
  have names : edits.map (fun edited => Alias.hostOf edited.1) = edits.map Prod.fst :=
    List.map_congr_left fun edited member =>
      Alias.hostOf_of_real (real edited.1 (List.mem_map_of_mem member))
  rw [byHost, names, eraseDups_of_nodup distinct, List.map_map]
  refine (List.map_congr_left fun edited member => ?_).trans (List.map_id _)
  rw [Function.comp_apply, gather_of_real real, editsOf_of_nodup distinct member]
  rfl

theorem mapChanges_of_real {changes : List (String × List TextEdit)}
    (real : ∀ uri ∈ changes.map Prod.fst, Alias.isAlias uri = false)
    (distinct : (changes.map Prod.fst).Nodup) : store.mapChanges changes = changes := by
  rw [mapChanges_eq, byHost_of_real real distinct]

/-! ### Real documents among other changes -/

theorem kept_eq_self {changes : List DocumentChange}
    (distinct : (changes.filterMap DocumentChange.target?).Nodup) : kept changes = changes := by
  induction changes using List.reverseRecOn with
  | nil => rfl
  | append_singleton changes change ih =>
    rw [List.filterMap_append] at distinct
    obtain ⟨before, -, apart⟩ := List.nodup_append.mp distinct
    rw [kept_snoc_of_new, ih before]
    intro target known inside
    rw [ih before] at inside
    exact apart target inside target (by simp [known]) rfl

theorem housed_of_real {change : DocumentChange}
    (real : ∀ uri ∈ change.names, Alias.isAlias uri = false) : change.housed = change := by
  cases change with
  | edit edit =>
    have isReal := Alias.parse?_of_real (real edit.document.uri (List.mem_singleton_self _))
    simp [DocumentChange.housed, Identifier.housed, isReal]
  | create uri rest | delete uri rest =>
    simp [DocumentChange.housed, Alias.hostOf_of_real (real uri (List.mem_singleton_self _))]
  | rename oldUri newUri rest =>
    simp [DocumentChange.housed, Alias.hostOf_of_real (real oldUri (by simp [DocumentChange.names])),
      Alias.hostOf_of_real (real newUri (by simp [DocumentChange.names]))]
  | other value => rfl

theorem edited_of_real {changes : List DocumentChange}
    (real : ∀ uri ∈ changes.flatMap DocumentChange.names, Alias.isAlias uri = false) :
    ∀ uri ∈ (changes.filterMap DocumentChange.edited?).map Prod.fst, Alias.isAlias uri = false := by
  intro uri member
  obtain ⟨edited, inEdits, rfl⟩ := List.mem_map.mp member
  obtain ⟨change, inChanges, isEdit⟩ := List.mem_filterMap.mp inEdits
  refine real _ (List.mem_flatMap.mpr ⟨change, inChanges, ?_⟩)
  cases change with
  | edit edit =>
    cases isEdit
    exact List.mem_singleton_self _
  | create | delete | rename | other => simp [DocumentChange.edited?] at isEdit

theorem mapDocumentChanges_of_real {changes : List DocumentChange}
    (real : ∀ uri ∈ changes.flatMap DocumentChange.names, Alias.isAlias uri = false) :
    store.mapDocumentChanges changes = DocumentChange.joined changes := by
  rw [mapDocumentChanges_eq]
  refine List.map_congr_left fun change member => ?_
  have own : change.housed = change := housed_of_real fun uri named =>
    real uri (List.mem_flatMap.mpr ⟨change, kept_subset changes member, named⟩)
  rw [completed, own]
  exact congrArg (DocumentChange.withEdits · change) (funext (gather_of_real (edited_of_real real)))

theorem joined_of_nodup {changes : List DocumentChange}
    (real : ∀ uri ∈ changes.flatMap DocumentChange.names, Alias.isAlias uri = false)
    (distinct : ((changes.filterMap DocumentChange.edited?).map Prod.fst).Nodup) :
    DocumentChange.joined changes = changes := by
  have targets : changes.filterMap DocumentChange.target? =
      (changes.filterMap DocumentChange.edited?).map Prod.fst := by
    rw [filterMap_target?]
    exact List.map_congr_left fun edited member =>
      Alias.hostOf_of_real (edited_of_real real _ (List.mem_map_of_mem member))
  have all : changes.eraseDupsBy DocumentChange.sameTarget = changes :=
    kept_eq_self (targets ▸ distinct)
  rw [DocumentChange.joined, all]
  refine (List.map_congr_left fun change member => ?_).trans (List.map_id _)
  cases change with
  | edit edit =>
    have listed : (edit.document.uri, edit.edits) ∈ changes.filterMap DocumentChange.edited? :=
      List.mem_filterMap.mpr ⟨_, member, rfl⟩
    simp only [DocumentChange.withEdits, editsOf_of_nodup distinct listed, id]
  | create | delete | rename | other => rfl

theorem nodup_edited_mapDocumentChanges (changes : List DocumentChange) :
    (((store.mapDocumentChanges changes).filterMap DocumentChange.edited?).map Prod.fst).Nodup := by
  rw [edited_mapDocumentChanges]
  exact nodup_byHost _

theorem mapWorkspaceEdit_of_real {edit : WorkspaceEdit}
    (keyed : ((edit.changes.getD []).map Prod.fst).Nodup)
    (real : ∀ uri ∈ edit.names, Alias.isAlias uri = false) :
    store.mapWorkspaceEdit edit =
      { edit with documentChanges := edit.documentChanges.map DocumentChange.joined } := by
  obtain ⟨changes, documentChanges, rest⟩ := edit
  have listed : changes.map store.mapChanges = changes := by
    cases changes with
    | none => rfl
    | some changes =>
      exact congrArg some (mapChanges_of_real
        (fun uri member => real uri (List.mem_append_left _ member)) keyed)
  have inOrder : documentChanges.map store.mapDocumentChanges =
      documentChanges.map DocumentChange.joined := by
    cases documentChanges with
    | none => rfl
    | some changes =>
      exact congrArg some (mapDocumentChanges_of_real
        fun uri member => real uri (List.mem_append_right _ member))
  simp only [mapWorkspaceEdit, listed, inOrder]

/-- An edit of the workspace that names real documents only comes back as it is exactly if no two of its
changes edit the same document. All edits of a document are put where the first of them stands, whatever
happens to files in between, and nothing else is touched. -/
theorem mapWorkspaceEdit_eq_self_iff_of_real (store : Store) (edit : WorkspaceEdit)
    (keyed : ((edit.changes.getD []).map Prod.fst).Nodup)
    (real : ∀ uri ∈ edit.names, Alias.isAlias uri = false) :
    (store.mapWorkspaceEdit edit = edit ↔
      (((edit.documentChanges.getD []).filterMap DocumentChange.edited?).map Prod.fst).Nodup) ∧
    store.mapWorkspaceEdit edit =
      { edit with documentChanges := edit.documentChanges.map DocumentChange.joined } := by
  refine ⟨⟨?_, ?_⟩, mapWorkspaceEdit_of_real keyed real⟩
  · intro same
    have inOrder : edit.documentChanges.map store.mapDocumentChanges = edit.documentChanges :=
      congrArg WorkspaceEdit.documentChanges same
    cases isListed : edit.documentChanges with
    | none => exact List.nodup_nil
    | some changes =>
      rw [isListed] at inOrder
      rw [← Option.some.inj inOrder]
      exact nodup_edited_mapDocumentChanges changes
  · intro distinct
    rw [mapWorkspaceEdit_of_real keyed real]
    obtain ⟨changes, documentChanges, rest⟩ := edit
    cases documentChanges with
    | none => rfl
    | some documentChanges =>
      have fixed := joined_of_nodup
        (fun uri member => real uri (List.mem_append_right _ member)) distinct
      simp only [Option.getD_some] at fixed
      rw [Option.map_some, fixed]

/-- A file is edited, renamed and edited under its new name. -/
theorem mapWorkspaceEdit_eq_self_of_renamed_file :
    let edit : WorkspaceEdit :=
      { changes := some [("file:///c", [{ range := ⟨⟨0, 0⟩, ⟨0, 1⟩⟩ }])]
        documentChanges := some
          [.edit { document := { uri := "file:///a" }, edits := [{ range := ⟨⟨0, 0⟩, ⟨0, 1⟩⟩ }] },
           .rename "file:///a" "file:///b" [],
           .edit { document := { uri := "file:///b" }, edits := [{ range := ⟨⟨1, 0⟩, ⟨1, 0⟩⟩ }] }] }
    ((edit.changes.getD []).map Prod.fst).Nodup ∧
    (∀ uri ∈ edit.names, Alias.isAlias uri = false) ∧
    (((edit.documentChanges.getD []).filterMap DocumentChange.edited?).map Prod.fst).Nodup ∧
    ({} : Store).mapWorkspaceEdit edit = edit := by
  intro edit
  have keyed : ((edit.changes.getD []).map Prod.fst).Nodup := by decide
  have real : ∀ uri ∈ edit.names, Alias.isAlias uri = false := by decide
  have distinct : (((edit.documentChanges.getD []).filterMap DocumentChange.edited?).map
    Prod.fst).Nodup := by decide
  exact ⟨keyed, real, distinct,
    (mapWorkspaceEdit_eq_self_iff_of_real {} edit keyed real).1.mpr distinct⟩

/-- A file is edited, deleted and made anew, and the new file is edited. That edit is moved to the file
that is deleted. -/
theorem edit_of_new_file_moved_to_deleted_file :
    let old : TextEdit := { range := ⟨⟨0, 0⟩, ⟨0, 1⟩⟩, rest := [("newText", .str "x")] }
    let new : TextEdit := { range := ⟨⟨0, 0⟩, ⟨0, 0⟩⟩, rest := [("newText", .str "y")] }
    let change (edits : List TextEdit) : DocumentChange :=
      .edit
        { document := { type := "OptionalVersionedTextDocumentIdentifier", uri := "file:///a.txt" }
          edits := edits }
    let delete : DocumentChange := .delete "file:///a.txt" [("kind", .str "delete")]
    let create : DocumentChange := .create "file:///a.txt" [("kind", .str "create")]
    let edit : WorkspaceEdit :=
      { documentChanges := some [change [old], delete, create, change [new]] }
    (∀ uri ∈ edit.names, Alias.isAlias uri = false) ∧
    ({} : Store).mapWorkspaceEdit edit =
      { documentChanges := some [change [old, new], delete, create] } ∧
    ({} : Store).mapWorkspaceEdit edit ≠ edit := by
  intro old new change delete create edit
  have moved : ({} : Store).mapWorkspaceEdit edit =
      { documentChanges := some [change [old, new], delete, create] } := by cbv
  refine ⟨by decide, moved, fun same => ?_⟩
  have lengths : some 3 = some 4 :=
    congrArg (fun edit => edit.documentChanges.map List.length) (moved.symm.trans same)
  exact absurd lengths (by decide)

/-! ### A second translation -/

theorem mapChanges_again {changes : List (String × List TextEdit)}
    (rooted : ∀ uri ∈ changes.map Prod.fst, Alias.Rooted uri) :
    store.mapChanges (store.mapChanges changes) = store.mapChanges changes := by
  refine mapChanges_of_real ((housed_mapChanges changes).real rooted) ?_
  rw [mapChanges_eq]
  exact nodup_byHost changes

theorem mapDocumentChanges_again {changes : List DocumentChange}
    (rooted : ∀ uri ∈ changes.flatMap DocumentChange.names, Alias.Rooted uri) :
    store.mapDocumentChanges (store.mapDocumentChanges changes) =
      store.mapDocumentChanges changes := by
  have real := (housed_mapDocumentChanges store changes).real rooted
  rw [mapDocumentChanges_of_real real,
    joined_of_nodup real (nodup_edited_mapDocumentChanges changes)]

theorem mapWorkspaceEdit_again {edit : WorkspaceEdit}
    (rooted : ∀ uri ∈ edit.names, Alias.Rooted uri) :
    store.mapWorkspaceEdit (store.mapWorkspaceEdit edit) = store.mapWorkspaceEdit edit := by
  obtain ⟨changes, documentChanges, rest⟩ := edit
  have listed : (changes.map store.mapChanges).map store.mapChanges =
      changes.map store.mapChanges := by
    cases changes with
    | none => rfl
    | some changes =>
      exact congrArg some (mapChanges_again fun uri member =>
        rooted uri (List.mem_append_left _ member))
  have inOrder : (documentChanges.map store.mapDocumentChanges).map store.mapDocumentChanges =
      documentChanges.map store.mapDocumentChanges := by
    cases documentChanges with
    | none => rfl
    | some changes =>
      exact congrArg some (mapDocumentChanges_again fun uri member =>
        rooted uri (List.mem_append_right _ member))
  simp only [mapWorkspaceEdit, listed, inOrder]

theorem mapLocation_of_real {place : Location} (real : Alias.isAlias place.uri = false) :
    store.mapLocation place = .ok place := by
  rw [mapLocation, Alias.parse?_of_real real]

theorem mapLocation_again {given mapped : Location} (rooted : Alias.Rooted given.uri)
    (ok : store.mapLocation given = .ok mapped) : store.mapLocation mapped = .ok mapped := by
  apply mapLocation_of_real
  rw [mapLocation_uri ok]
  exact rooted.hostOf

theorem map_mapLocation_again {given : Location} {make : Location → Item} {mapped : Item}
    (rooted : Alias.Rooted given.uri) (ok : (store.mapLocation given).map make = .ok mapped) :
    ∃ found, mapped = make found ∧ (store.mapLocation found).map make = .ok mapped := by
  obtain ⟨found, placeOk, rfl⟩ := Except.map_eq_ok ok
  refine ⟨found, rfl, ?_⟩
  rw [mapLocation_again rooted placeOk]
  rfl

theorem mapLocationLink_of_real {context : Context} {link : LocationLink}
    (real : Alias.isAlias link.targetUri = false) (alone : link.originSelectionRange = none) :
    store.mapLocationLink context link = .ok link := by
  obtain ⟨uri, range, selection, origin⟩ := link
  cases alone
  have places : ∀ range, store.mapLocation ⟨uri, range⟩ = .ok ⟨uri, range⟩ :=
    fun _ => mapLocation_of_real real
  simp only [mapLocationLink, places]
  rfl

theorem mapLocationLink_alone {context : Context} {link mapped : LocationLink}
    (alone : link.originSelectionRange = none)
    (ok : store.mapLocationLink context link = .ok mapped) : mapped.originSelectionRange = none := by
  obtain ⟨target, _, ok⟩ := Except.bind_eq_ok ok
  obtain ⟨selection, _, ok⟩ := Except.bind_eq_ok ok
  rw [alone] at ok
  cases ok
  rfl

end Store

/-- Whether an item names the documents of all its ranges. -/
def Item.selfNamed : Item → Bool
  | location _ | symbolInformation _ | workspaceSymbol _ | workspaceEdit _ => true
  | locationLink link => link.originSelectionRange.isNone
  | _ => false

namespace Store

variable {store : Store} {context : Context} (other : Context)

theorem mapLocationItem_again {item mapped : Item} (named : item.selfNamed = true)
    (rooted : ∀ uri ∈ item.names, Alias.Rooted uri)
    (ok : store.mapLocationItem context item = .ok mapped) :
    mapped.selfNamed = true ∧ store.mapLocationItem other mapped = .ok mapped := by
  cases item with
  | location place =>
    obtain ⟨found, rfl, again⟩ := map_mapLocation_again (rooted _ (List.mem_singleton_self _)) ok
    exact ⟨rfl, again⟩
  | locationLink link =>
    obtain ⟨found, linkOk, rfl⟩ := Except.map_eq_ok ok
    have alone := mapLocationLink_alone (Option.isNone_iff_eq_none.mp named) linkOk
    have real : Alias.isAlias found.targetUri = false := by
      rw [mapLocationLink_uri linkOk]
      exact (rooted _ (List.mem_singleton_self _)).hostOf
    refine ⟨Option.isNone_iff_eq_none.mpr alone, ?_⟩
    rw [mapLocationItem, mapLocationLink_of_real real alone]
    rfl
  | symbolInformation | workspaceSymbol | workspaceEdit =>
    -- the rule does not look into these
    cases ok
    exact ⟨rfl, rfl⟩
  | _ => contradiction

theorem mapSymbolItem_again {item mapped : Item} (named : item.selfNamed = true)
    (rooted : ∀ uri ∈ item.names, Alias.Rooted uri)
    (ok : store.mapSymbolItem context item = .ok mapped) :
    mapped.selfNamed = true ∧ store.mapSymbolItem other mapped = .ok mapped := by
  cases item with
  | symbolInformation symbol =>
    obtain ⟨found, rfl, again⟩ := map_mapLocation_again (rooted _ (List.mem_singleton_self _)) ok
    exact ⟨rfl, again⟩
  | location | locationLink | workspaceSymbol | workspaceEdit =>
    cases ok
    exact ⟨named, rfl⟩
  | _ => contradiction

theorem mapRenameItem_again (store : Store) {item : Item} (named : item.selfNamed = true)
    (rooted : ∀ uri ∈ item.names, Alias.Rooted uri) :
    (store.mapRenameItem item).selfNamed = true ∧
      store.mapRenameItem (store.mapRenameItem item) = store.mapRenameItem item := by
  cases item with
  | workspaceEdit edit => exact ⟨rfl, congrArg Item.workspaceEdit (mapWorkspaceEdit_again rooted)⟩
  | location | locationLink | symbolInformation | workspaceSymbol => exact ⟨named, rfl⟩
  | _ => contradiction

theorem mapWorkspaceSymbol_again {item mapped : Item} (kind : item.isWorkspaceSymbol = true)
    (rooted : ∀ uri ∈ item.names, Alias.Rooted uri)
    (ok : store.mapWorkspaceSymbol item = .ok mapped) :
    mapped.isWorkspaceSymbol = true ∧ store.mapWorkspaceSymbol mapped = .ok mapped := by
  cases item with
  | symbolInformation symbol =>
    obtain ⟨found, rfl, again⟩ := map_mapLocation_again (rooted _ (List.mem_singleton_self _)) ok
    exact ⟨rfl, again⟩
  | workspaceSymbol symbol =>
    obtain ⟨place, rest⟩ := symbol
    cases place with
    | location place =>
      obtain ⟨found, rfl, again⟩ :=
        map_mapLocation_again (rooted _ (List.mem_singleton_self _)) ok
      exact ⟨rfl, again⟩
    | document named =>
      cases ok
      have real := (rooted named.uri (List.mem_singleton_self _)).hostOf
      exact ⟨rfl, by simp only [mapWorkspaceSymbol, Alias.hostOf_of_real real]⟩
  | _ => contradiction

theorem mapItem?_again (shaped : context.method ∈ Method.leading ++ [.documentSymbol, .rename])
    (same : other.method = context.method) {item kept : Item} (named : item.selfNamed = true)
    (rooted : ∀ uri ∈ item.names, Alias.Rooted uri) (keeps : store.mapItem? context item = some kept) :
    kept.selfNamed = true ∧ store.mapItem? other kept = some kept := by
  unfold mapItem? at keeps ⊢
  rw [same]
  cases method : context.method with
  | definition | typeDefinition | implementation | declaration | references =>
    rw [method] at keeps
    obtain ⟨stays, again⟩ :=
      mapLocationItem_again other named rooted (Except.eq_ok_of_toOption keeps)
    exact ⟨stays, congrArg Except.toOption again⟩
  | documentSymbol =>
    rw [method] at keeps
    obtain ⟨stays, again⟩ :=
      mapSymbolItem_again other named rooted (Except.eq_ok_of_toOption keeps)
    exact ⟨stays, congrArg Except.toOption again⟩
  | rename =>
    rw [method] at keeps
    cases keeps
    obtain ⟨stays, again⟩ := mapRenameItem_again store named rooted
    exact ⟨stays, congrArg some again⟩
  | _ => simp [method, Method.leading] at shaped

end Store

/-! ### Whole answers -/

theorem filterMap_again {α : Type} {keep again : α → Option α} {items : List α}
    (each : ∀ item ∈ items, ∀ kept, keep item = some kept → again kept = some kept) :
    (items.filterMap keep).filterMap again = items.filterMap keep := by
  rw [List.filterMap_filterMap]
  refine List.filterMap_congr fun item member => ?_
  cases keeps : keep item with
  | none => rfl
  | some kept => exact each item member kept keeps

namespace Context

variable (context : Context)

theorem isRegular_restored : context.restored.isRegular = context.isRegular := by
  unfold restored isRegular
  cases context.params <;> rfl

theorem restored_restored : context.restored.restored = context.restored := by
  unfold restored
  cases context.params <;> rfl

end Context

namespace Answer

theorem restore_again {answer : Answer} {keep again : Item → Option Item}
    (each : ∀ item ∈ answer.items, ∀ kept, keep item = some kept → again kept = some kept) :
    (answer.restore (answer.items.filterMap keep)).restore
        ((answer.restore (answer.items.filterMap keep)).items.filterMap again) =
      answer.restore (answer.items.filterMap keep) := by
  rw [items_restore, filterMap_again each]
  cases answer with
  | many items => rfl
  | null | one => cases List.filterMap keep _ <;> rfl

theorem isRegular_of_selfNamed {answer : Answer} {method : Method}
    (shaped : method ∈ Method.leading ++ [.documentSymbol, .rename])
    (named : ∀ item ∈ answer.items, item.selfNamed = true) : answer.isRegular method = true := by
  have plain : answer.isRegular method = answer.items.all Item.isRegular := by
    cases method with
    | completion | completionResolve | inlayHint => simp [Method.leading] at shaped
    | _ => cases answer <;> simp [isRegular, items]
  rw [plain, List.all_eq_true]
  intro item member
  have isNamed := named item member
  cases item with
  | other => contradiction
  | _ => rfl

end Answer

namespace Store

variable {store : Store} {context : Context}

/-- What is about real documents stays as it is, and where no alias stands for another alias everything
is about real documents once it has been translated. So an answer that names the documents of all its
ranges does not change when it is translated again, with its context before or after the first time. -/
theorem translated_twice_as_once (store : Store) :
    (∀ (context : Context) (answer : Answer), context.isRegular = true →
      context.method ∈ Method.leading ++ [.documentSymbol, .rename] →
      (∀ item ∈ answer.items, item.selfNamed = true) →
      (∀ uri ∈ answer.names, Alias.Rooted uri) →
        ∃ mapped restored, store.bringBack context answer = (.ok mapped, restored) ∧
          store.bringBack context mapped = (.ok mapped, restored) ∧
          store.bringBack restored mapped = (.ok mapped, restored)) ∧
    (∀ items : List Item, (∀ item ∈ items, item.isWorkspaceSymbol = true) →
      (∀ uri ∈ items.flatMap Item.names, Alias.Rooted uri) →
        ∃ mapped, store.bringSymbolsBack (.many items) = .ok mapped ∧
          store.bringSymbolsBack (.many mapped) = .ok mapped) ∧
    ∀ edit : WorkspaceEdit, (∀ uri ∈ edit.names, Alias.Rooted uri) →
      store.mapWorkspaceEdit (store.mapWorkspaceEdit edit) = store.mapWorkspaceEdit edit := by
  refine ⟨?_, ?_, ?_⟩
  · intro context answer proper shaped named rooted
    have first := bringBack_eq_restore store proper shaped (Answer.isRegular_of_selfNamed shaped named)
    obtain ⟨mapped, isMapped⟩ : ∃ mapped, answer.restore
        (answer.items.filterMap (store.mapItem? context)) = mapped := ⟨_, rfl⟩
    have each : ∀ other : Context, other.method = context.method → ∀ item ∈ answer.items, ∀ kept,
        store.mapItem? context item = some kept →
          kept.selfNamed = true ∧ store.mapItem? other kept = some kept :=
      fun other same item member kept keeps =>
        mapItem?_again other shaped same (named item member)
          (fun uri inItem => rooted uri (List.mem_flatMap.mpr ⟨item, member, inItem⟩)) keeps
    have stays : ∀ item ∈ mapped.items, item.selfNamed = true := by
      intro kept member
      rw [← isMapped, Answer.items_restore] at member
      obtain ⟨item, inAnswer, keeps⟩ := List.mem_filterMap.mp member
      exact (each context rfl item inAnswer kept keeps).1
    have again : ∀ other : Context, other.isRegular = true → other.method = context.method →
        store.bringBack other mapped = (.ok mapped, other.restored) := by
      intro other isProper same
      have isShaped := same ▸ shaped
      rw [bringBack_eq_restore store isProper isShaped (Answer.isRegular_of_selfNamed isShaped stays),
        ← isMapped, Answer.restore_again]
      exact fun item member kept keeps => (each other same item member kept keeps).2
    have after := again context.restored (context.isRegular_restored.trans proper) rfl
    rw [isMapped] at first
    rw [context.restored_restored] at after
    exact ⟨mapped, _, first, again context proper rfl, after⟩
  · intro items kinds rooted
    have each : ∀ item ∈ items, ∀ kept, (store.mapWorkspaceSymbol item).toOption = some kept →
        kept.isWorkspaceSymbol = true ∧ store.mapWorkspaceSymbol kept = .ok kept :=
      fun item member kept keeps => mapWorkspaceSymbol_again (kinds item member)
        (fun uri inItem => rooted uri (List.mem_flatMap.mpr ⟨item, member, inItem⟩))
        (Except.eq_ok_of_toOption keeps)
    refine ⟨_, bringSymbolsBack_many kinds, ?_⟩
    rw [bringSymbolsBack_many, mapWorkspaceSymbols, mapWorkspaceSymbols, filterMap_again]
    · intro item member kept keeps
      exact congrArg Except.toOption (each item member kept keeps).2
    · intro kept member
      obtain ⟨item, inItems, keeps⟩ := List.mem_filterMap.mp member
      exact (each item inItems kept keeps).1
  · intro edit rooted
    exact mapWorkspaceEdit_again rooted

/-- Two documents of one host and the host itself are edited, around the deletion of a file. The first
translation brings the edits together and drops one that has no place in the host. A symbol that is
somewhere in the first document is then somewhere in the host. -/
theorem translated_twice_as_once_of_merged_edits :
    ∃ (store : Store) (context : Context) (edit mapped : WorkspaceEdit) (restored : Context),
      context.isRegular = true ∧
      context.method ∈ Method.leading ++ [.documentSymbol, .rename] ∧
      (∀ item ∈ (Answer.one (.workspaceEdit edit)).items, item.selfNamed = true) ∧
      (∀ uri ∈ (Answer.one (.workspaceEdit edit)).names, Alias.Rooted uri) ∧
      edit.names = ["otter://h/python", "otter://h/r", "file:///a", "h"] ∧
      mapped.names = ["h", "file:///a"] ∧
      edit.places.length = 4 ∧ mapped.places.length = 3 ∧
      store.bringBack context (.one (.workspaceEdit edit)) =
        (.ok (.one (.workspaceEdit mapped)), restored) ∧
      store.bringBack restored (.one (.workspaceEdit mapped)) =
        (.ok (.one (.workspaceEdit mapped)), restored) ∧
      store.mapWorkspaceEdit mapped = mapped ∧
      ∃ symbol housed : Item, symbol.isWorkspaceSymbol = true ∧
        symbol.names = ["otter://h/python"] ∧ housed.names = ["h"] ∧
        store.bringSymbolsBack (.many [symbol]) = .ok [housed] ∧
        store.bringSymbolsBack (.many [housed]) = .ok [housed] := by
  let store : Store :=
    (fresh .compact .standard none).openHost "h" "```python\nx = 1\n```\n```r\nv\n```"
  let context : Context :=
    { id := 1, method := .rename, host := "h", aliasUri := "otter://h/python"
      language := "python"
      params := .document
        { type := "RenameParams", document := { uri := "otter://h/python" }
          position := some ⟨0, 0⟩ } }
  let inside : TextEdit := { range := ⟨⟨0, 0⟩, ⟨0, 1⟩⟩ }
  let below : TextEdit := { range := ⟨⟨7, 0⟩, ⟨7, 1⟩⟩ }
  let change (uri : String) (edits : List TextEdit) : DocumentChange :=
    .edit { document := { uri := uri }, edits := edits }
  let edit : WorkspaceEdit :=
    { documentChanges := some
        [change "otter://h/python" [inside, below], change "otter://h/r" [inside],
         .delete "file:///a" [], change "h" [inside]] }
  let mapped : WorkspaceEdit :=
    { documentChanges := some
        [.edit
          { document := { type := "OptionalVersionedTextDocumentIdentifier", uri := "h" }
            edits := [{ range := ⟨⟨1, 0⟩, ⟨1, 1⟩⟩ }, { range := ⟨⟨4, 0⟩, ⟨4, 1⟩⟩ }, inside] },
         .delete "file:///a" []] }
  let symbol : Item := .workspaceSymbol { place := .document { uri := "otter://h/python" } }
  let housed : Item := .workspaceSymbol { place := .document { uri := "h" } }
  have run : (context.isRegular, store.mapWorkspaceEdit edit,
      store.bringSymbolsBack (.many [symbol]),
      store.bringBack context (.one (.workspaceEdit edit))) =
        (true, mapped, .ok [housed], .ok (.one (.workspaceEdit mapped)), context.restored) := by cbv
  obtain ⟨proper, isMapped, isHoused, first⟩ := by simpa only [Prod.mk.injEq] using run
  have named : ∀ item ∈ (Answer.one (.workspaceEdit edit)).items, item.selfNamed = true := by decide
  have rooted : ∀ uri ∈ (Answer.one (.workspaceEdit edit)).names, Alias.Rooted uri := by decide
  have rootedNames : ∀ uri ∈ edit.names, Alias.Rooted uri := by decide
  obtain ⟨answers, symbols, edits⟩ := translated_twice_as_once store
  obtain ⟨_, _, firstOk, -, again⟩ :=
    answers context (.one (.workspaceEdit edit)) proper (by decide) named rooted
  cases first.symm.trans firstOk
  have editAgain := edits edit rootedNames
  rw [isMapped] at editAgain
  obtain ⟨_, symbolOk, symbolAgain⟩ := symbols [symbol] (by decide) (by decide)
  cases isHoused.symm.trans symbolOk
  exact ⟨store, context, edit, mapped, _, proper, by decide, named, rooted, rfl, rfl, rfl, rfl, first,
    again, editAgain, symbol, housed, rfl, rfl, rfl, isHoused, symbolAgain⟩

end Store

end LanguageBridge
