import LanguageBridge.Proofs.Mapping.Answers

namespace LanguageBridge

/-! The documents that an answer names. Whatever rule brings an answer back to the host, it names
hosts only: every name in the result is the host behind a name in the answer. -/

/-! ### Names -/

def SymbolPlace.names : SymbolPlace → List String
  | location place => [place.uri]
  | document named => [named.uri]

def DocumentChange.names : DocumentChange → List String
  | edit change => [change.document.uri]
  | create uri _ | delete uri _ => [uri]
  | rename oldUri newUri _ => [oldUri, newUri]
  | other _ => []

def WorkspaceEdit.names (edit : WorkspaceEdit) : List String :=
  (edit.changes.getD []).map Prod.fst ++
    (edit.documentChanges.getD []).flatMap DocumentChange.names

/-- The document in the data of a completion. -/
def CompletionItem.names (item : CompletionItem) : List String :=
  ((item.data.lookUp? "uri").bind Value.text?).toList

def HintLabel.names (label : HintLabel) : List String :=
  label.places.map Location.uri

def Diagnostic.names (diagnostic : Diagnostic) : List String :=
  (diagnostic.related.getD []).map fun related => related.location.uri

def Item.names : Item → List String
  | location place => [place.uri]
  | locationLink link => [link.targetUri]
  | symbolInformation symbol => [symbol.location.uri]
  | workspaceSymbol symbol => symbol.place.names
  | workspaceEdit edit => edit.names
  | completionItem item => item.names
  | completionList list => list.items.flatMap CompletionItem.names
  | inlayHint hint => hint.label.names
  | documentSymbol _ | range _ | renamePlaceholder _ | hover _ | other _ => []

def Answer.names (answer : Answer) : List String :=
  answer.items.flatMap Item.names

/-- Every name in one list is the host behind a name in another. -/
def Housed (given mapped : List String) : Prop :=
  mapped ⊆ given.map Alias.hostOf

namespace Housed

variable {given mapped otherGiven otherMapped : List String}

theorem nil (given : List String) : Housed given [] :=
  List.nil_subset _

theorem of_eq {uri host : String} (same : host = Alias.hostOf uri) : Housed [uri] [host] := by
  rw [same]
  exact List.Subset.refl _

theorem mono (housed : Housed given mapped) (within : given ⊆ otherGiven) :
    Housed otherGiven mapped :=
  List.Subset.trans housed (List.map_subset _ within)

theorem join (first : Housed given mapped) (second : Housed given otherMapped) :
    Housed given (mapped ++ otherMapped) :=
  List.append_subset.mpr ⟨first, second⟩

theorem append (first : Housed given mapped) (second : Housed otherGiven otherMapped) :
    Housed (given ++ otherGiven) (mapped ++ otherMapped) :=
  (first.mono (List.subset_append_left _ _)).join (second.mono (List.subset_append_right _ _))

theorem filterMap {α β : Type} {items : List α} {keep : α → Option β} {view : α → List String}
    {mappedView : β → List String}
    (each : ∀ item ∈ items, ∀ kept, keep item = some kept →
      Housed (view item) (mappedView kept)) :
    Housed (items.flatMap view) ((items.filterMap keep).flatMap mappedView) := by
  intro name member
  obtain ⟨kept, isKept, inView⟩ := List.mem_flatMap.mp member
  obtain ⟨item, inItems, keeps⟩ := List.mem_filterMap.mp isKept
  exact (each item inItems kept keeps).mono
    (fun _ inItem => List.mem_flatMap_of_mem inItems inItem) inView

end Housed

theorem lookUp?_setEntry (value : Value) (key : String) (new : Value) :
    (value.setEntry key new).lookUp? key = (value.lookUp? key).map fun _ => new := by
  cases value with
  | map entries =>
    simp only [Value.setEntry, Value.lookUp?]
    induction entries with
    | nil => rfl
    | cons entry rest ih =>
      obtain ⟨name, value⟩ := entry
      by_cases same : name = key
      · simp [same]
      · have other : (key == name) = false := by simpa using Ne.symm same
        simpa [List.lookup_cons, same, other] using ih
  | _ => rfl

theorem lookUp?_hostData (data : Value) :
    (hostData data).lookUp? "uri" = (data.lookUp? "uri").map Alias.hostOfValue := by
  unfold hostData
  split
  · rename_i uri found
    rw [lookUp?_setEntry, found]
    rfl
  · rename_i missing
    rw [missing]
    rfl

namespace Store

variable {store : Store} {context : Context}

/-- Places that are mapped are named after the hosts of their documents. -/
theorem Traced.housed {given mapped : List Location} (traced : store.Traced given mapped) :
    Housed (given.map Location.uri) (mapped.map Location.uri) := by
  intro name member
  obtain ⟨place, inMapped, rfl⟩ := List.mem_map.mp member
  obtain ⟨source, inGiven, ok⟩ := traced place inMapped
  rw [List.map_map, mapLocation_uri ok]
  exact List.mem_map_of_mem inGiven

theorem mapLocationLink_uri {link mapped : LocationLink}
    (ok : store.mapLocationLink context link = .ok mapped) :
    mapped.targetUri = Alias.hostOf link.targetUri := by
  obtain ⟨target, targetOk, ok⟩ := Except.bind_eq_ok ok
  obtain ⟨selection, _, ok⟩ := Except.bind_eq_ok ok
  cases given : link.originSelectionRange with
  | none =>
    rw [given] at ok
    cases ok
    exact mapLocation_uri targetOk
  | some range =>
    rw [given] at ok
    obtain ⟨origin, _, ok⟩ := Except.bind_eq_ok ok
    cases ok
    exact mapLocation_uri targetOk

/-! ### Edits -/

theorem housed_mapChanges (changes : List (String × List TextEdit)) :
    Housed (changes.map Prod.fst) ((store.mapChanges changes).map Prod.fst) := by
  intro name member
  rw [mapChanges_eq] at member
  obtain ⟨entry, listed, rfl⟩ := List.mem_map.mp member
  obtain ⟨target, named, rfl⟩ := List.mem_map.mp listed
  obtain ⟨change, inChanges, rfl⟩ := List.mem_map.mp (List.mem_eraseDups.mp named)
  exact List.mem_map_of_mem (List.mem_map_of_mem inChanges)

theorem names_completed (changes : List DocumentChange) (change : DocumentChange) :
    (store.completed changes change).names = change.names.map Alias.hostOf := by
  cases change with
  | edit edit => simp [completed_edit, DocumentChange.names]
  | create | delete | rename | other => rfl

theorem housed_mapDocumentChanges (store : Store) (changes : List DocumentChange) :
    Housed (changes.flatMap DocumentChange.names)
      ((store.mapDocumentChanges changes).flatMap DocumentChange.names) := by
  intro name member
  rw [mapDocumentChanges_eq] at member
  obtain ⟨change, listed, named⟩ := List.mem_flatMap.mp member
  obtain ⟨first, isKept, rfl⟩ := List.mem_map.mp listed
  rw [names_completed] at named
  exact List.map_subset _ (fun _ => List.mem_flatMap_of_mem (kept_subset changes isKept)) named

theorem housed_workspaceEdit (edit : WorkspaceEdit) :
    Housed edit.names (store.mapWorkspaceEdit edit).names := by
  unfold WorkspaceEdit.names
  rw [changes_mapWorkspaceEdit, documentChanges_mapWorkspaceEdit]
  exact (housed_mapChanges _).append (housed_mapDocumentChanges store _)

/-! ### Completions, hints, diagnostics -/

theorem housed_completionItem {item mapped : CompletionItem}
    (ok : store.mapCompletionItem context item = .ok mapped) : Housed item.names mapped.names := by
  obtain ⟨_, _, ok⟩ := Except.bind_eq_ok ok
  obtain ⟨_, _, ok⟩ := Except.bind_eq_ok ok
  cases ok
  unfold CompletionItem.names
  rw [lookUp?_hostData]
  cases item.data.lookUp? "uri" with
  | none => exact .nil _
  | some uri =>
    cases uri with
    | str uri => exact .of_eq rfl
    | _ => exact .nil _

theorem housed_diagnostic {host language : String} {diagnostic mapped : Diagnostic}
    (ok : store.mapDiagnostic host language diagnostic = .ok mapped) :
    Housed diagnostic.names mapped.names := by
  obtain ⟨range, _, ok⟩ := Except.bind_eq_ok ok
  obtain ⟨related, relatedOk, ok⟩ := Except.bind_eq_ok ok
  cases ok
  unfold Diagnostic.names
  rcases mapOptional_eq_ok relatedOk with ⟨_, rfl⟩ | ⟨given, found, isGiven, rfl, foundOk⟩
  · exact .nil _
  · simpa [isGiven, Function.comp_def] using (traced_related foundOk).housed

/-! ### Whole answers -/

theorem Becomes.housed {item mapped : Item} (becomes : store.Becomes context item mapped) :
    Housed item.names mapped.names := by
  cases becomes with
  | location ok => exact .of_eq (mapLocation_uri ok)
  | locationLink ok => exact .of_eq (mapLocationLink_uri ok)
  | symbolInformation ok => exact .of_eq (mapLocation_uri ok)
  | workspaceEdit edit => exact housed_workspaceEdit edit
  | completionItem ok => exact housed_completionItem ok
  | completionList list =>
    exact Housed.filterMap fun _ _ _ kept => housed_completionItem (Except.eq_ok_of_toOption kept)
  | inlayHint ok =>
    obtain ⟨_, _, ok⟩ := Except.bind_eq_ok ok
    obtain ⟨_, _, ok⟩ := Except.bind_eq_ok ok
    obtain ⟨label, labelOk, ok⟩ := Except.bind_eq_ok ok
    cases ok
    exact (traced_label labelOk).housed
  | documentSymbol | range | renamePlaceholder | hover | other => exact .nil _

theorem housed_mapAnswer {answer : Answer} (fits : answer.suits context.method = true) :
    Housed answer.names (store.mapAnswer context answer).names := by
  intro name member
  obtain ⟨kept, isKept, named⟩ := List.mem_flatMap.mp member
  obtain ⟨item, inItems, becomes⟩ := comesFrom_mapAnswer fits kept isKept
  exact becomes.housed.mono (fun _ => List.mem_flatMap_of_mem inItems) named

theorem housed_workspaceSymbol {item mapped : Item} (fits : item.suitsWorkspace = true)
    (ok : store.mapWorkspaceSymbol item = .ok mapped) : Housed item.names mapped.names := by
  cases item with
  | symbolInformation symbol =>
    obtain ⟨found, placeOk, rfl⟩ := Except.map_eq_ok ok
    exact .of_eq (mapLocation_uri placeOk)
  | workspaceSymbol symbol =>
    unfold mapWorkspaceSymbol at ok
    simp only at ok
    split at ok
    · rename_i location isLocation
      obtain ⟨found, placeOk, rfl⟩ := Except.map_eq_ok ok
      simp only [Item.names, isLocation, SymbolPlace.names]
      exact .of_eq (mapLocation_uri placeOk)
    · rename_i named isDocument
      cases ok
      simp only [Item.names, isDocument, SymbolPlace.names]
      exact .of_eq rfl
  | other value =>
    cases ok
    exact .nil _
  | _ => contradiction

end Store

/-! ### Answers without aliases -/

/-- What an identifier decodes to, if it is an alias, is a real document. -/
def Alias.Rooted (uri : String) : Prop :=
  ∀ source, parse? uri = some source → isAlias source.host = false

theorem Alias.Rooted.hostOf {uri : String} (rooted : Rooted uri) :
    isAlias (Alias.hostOf uri) = false := by
  unfold Alias.hostOf
  split
  · rename_i source parsed
    exact rooted source parsed
  · rename_i real
    simp [isAlias, real]

theorem Housed.real {given mapped : List String} (housed : Housed given mapped)
    (rooted : ∀ uri ∈ given, Alias.Rooted uri) : ∀ uri ∈ mapped, Alias.isAlias uri = false := by
  intro uri member
  obtain ⟨source, inGiven, rfl⟩ := List.mem_map.mp (housed member)
  exact (rooted source inGiven).hostOf

namespace Store

/-- Where no alias stands for another alias, the editor gets none: not in the answer to a request,
whatever store it meets when it arrives, and not in workspace edits, symbols of the workspace or
published diagnostics. -/
theorem translated_names_real (store : Store) :
    (∀ (context : Context) (answer : Answer),
      context.isRegular = true → answer.suits context.method = true →
      (∀ uri ∈ answer.names, Alias.Rooted uri) →
        ∃ mapped, (store.bringBack context answer).1 = .ok mapped ∧
          ∀ uri ∈ mapped.names, Alias.isAlias uri = false) ∧
    (∀ edit : WorkspaceEdit, (∀ uri ∈ edit.names, Alias.Rooted uri) →
      ∀ uri ∈ (store.mapWorkspaceEdit edit).names, Alias.isAlias uri = false) ∧
    (∀ items : List Item, (∀ item ∈ items, item.suitsWorkspace = true) →
      (∀ uri ∈ items.flatMap Item.names, Alias.Rooted uri) →
        ∀ uri ∈ (store.mapWorkspaceSymbols items).flatMap Item.names,
          Alias.isAlias uri = false) ∧
    ∀ (asked : String) (diagnostics : List Diagnostic) (source : Alias) (mapped : List Diagnostic),
      store.mapPublication? asked diagnostics = some (source, mapped) → Alias.Rooted asked →
      (∀ uri ∈ diagnostics.flatMap Diagnostic.names, Alias.Rooted uri) →
        Alias.isAlias source.host = false ∧
          ∀ uri ∈ mapped.flatMap Diagnostic.names, Alias.isAlias uri = false := by
  refine ⟨?_, ?_, ?_, ?_⟩
  · intro context answer regular fits rooted
    have brought : (store.bringBack context answer).1 = .ok (store.mapBack context answer).1 := by
      simp [bringBack, (Answer.suits_items fits).1, regular]
    refine ⟨_, brought, ?_⟩
    cases answer with
    | null => exact (Housed.nil []).real (by simp)
    | one item => exact (housed_mapAnswer fits).real rooted
    | many items => exact (housed_mapAnswer fits).real rooted
  · intro edit rooted
    exact (housed_workspaceEdit edit).real rooted
  · intro items fits rooted
    refine (Housed.filterMap fun item member kept keeps => ?_).real rooted
    exact housed_workspaceSymbol (fits item member) (Except.eq_ok_of_toOption keeps)
  · intro asked diagnostics source mapped published rootedUri rooted
    obtain ⟨found, parsed, same⟩ := Option.map_eq_some_iff.mp published
    cases same
    refine ⟨rootedUri source parsed, (Housed.filterMap fun diagnostic _ kept keeps => ?_).real rooted⟩
    exact housed_diagnostic (Except.eq_ok_of_toOption keeps)

/-- The second place lies behind the chunk. The link to it is dropped although its target could be
mapped, and its alias goes with it. -/
theorem translated_names_real_of_links :
    ∃ (store : Store) (context : Context) (answer mapped : Answer),
      context.isRegular = true ∧ answer.suits context.method = true ∧
      (∀ uri ∈ answer.names, Alias.Rooted uri) ∧
      answer.names = ["otter://h/python", "otter://h/python", "file:///real.py"] ∧
      (store.bringBack context answer).1 = .ok mapped ∧
      mapped.names = ["h", "file:///real.py"] ∧
      ∀ uri ∈ mapped.names, Alias.isAlias uri = false := by
  let store : Store := (fresh .compact .standard none).openHost "h" "```python\nx = 1\n```"
  let context : Context :=
    { id := 1, method := .definition, host := "h", aliasUri := "otter://h/python"
      language := "python"
      params := .document
        { type := "DefinitionParams", document := { uri := "otter://h/python" }
          position := some ⟨0, 0⟩ } }
  let inside : Range := ⟨⟨0, 0⟩, ⟨0, 1⟩⟩
  let answer : Answer := .many
    [.locationLink ⟨"otter://h/python", inside, inside, none⟩,
     .locationLink ⟨"otter://h/python", inside, ⟨⟨7, 0⟩, ⟨7, 1⟩⟩, none⟩,
     .location ⟨"file:///real.py", inside⟩]
  let mapped : Answer := .many
    [.locationLink ⟨"h", ⟨⟨1, 0⟩, ⟨1, 1⟩⟩, ⟨⟨1, 0⟩, ⟨1, 1⟩⟩, none⟩,
     .location ⟨"file:///real.py", inside⟩]
  have regular : context.isRegular = true := by cbv
  have fits : answer.suits context.method = true := by cbv
  have decoded : Alias.parse? "otter://h/python" = some ⟨"h", "python"⟩ := by cbv
  have real : Alias.parse? "file:///real.py" = none := by cbv
  have host : Alias.isAlias "h" = false := by cbv
  have ofAlias : Alias.Rooted "otter://h/python" := by
    intro source parsed
    cases decoded.symm.trans parsed
    exact host
  have ofFile : Alias.Rooted "file:///real.py" := by
    intro source parsed
    cases real.symm.trans parsed
  have rooted : ∀ uri ∈ answer.names, Alias.Rooted uri := by
    simp [answer, Answer.names, Answer.items, Item.names, ofAlias, ofFile]
  have ok : (store.bringBack context answer).1 = .ok mapped := by cbv
  obtain ⟨found, brought, clean⟩ := (translated_names_real store).1 context answer regular fits rooted
  cases ok.symm.trans brought
  exact ⟨store, context, answer, mapped, regular, fits, rooted, rfl, ok, rfl, clean⟩

end Store

end LanguageBridge
