import Mathlib.Data.List.Induction
import Mathlib.Data.List.Nodup
import LanguageBridge.Mapping.Answers
import LanguageBridge.Proofs.AliasSpelling

namespace LanguageBridge

/-! Workspace edits. However many documents of one host are edited, and in whichever of the two forms,
the host gets their edits in the order in which they were listed, and nobody else gets them. -/

/-! ### Repeats -/

theorem eraseDupsBy_snoc {α : Type} (same : α → α → Bool) (items : List α) (item : α) :
    (items ++ [item]).eraseDupsBy same =
      if (items.eraseDupsBy same).any (same item) then items.eraseDupsBy same
      else items.eraseDupsBy same ++ [item] := by
  have run : ∀ kept, List.eraseDupsBy.loop same (items ++ [item]) kept =
      if (List.eraseDupsBy.loop same items kept).any (same item) then
        List.eraseDupsBy.loop same items kept
      else List.eraseDupsBy.loop same items kept ++ [item] := by
    induction items with
    | nil =>
      intro kept
      simp only [List.nil_append, List.eraseDupsBy.loop, List.any_reverse]
      cases kept.any (same item) <;> simp
    | cons first rest ih =>
      intro kept
      have passed : ∀ later, List.eraseDupsBy.loop same (first :: later) kept =
          List.eraseDupsBy.loop same later
            (if kept.any (same first) then kept else first :: kept) := by
        intro later
        rw [List.eraseDupsBy.loop]
        cases kept.any (same first) <;> rfl
      rw [List.cons_append, passed, passed]
      exact ih _
  exact run []

theorem eraseDups_snoc (items : List String) (item : String) :
    (items ++ [item]).eraseDups =
      if item ∈ items.eraseDups then items.eraseDups else items.eraseDups ++ [item] := by
  unfold List.eraseDups
  rw [eraseDupsBy_snoc]
  simp

theorem nodup_eraseDups (items : List String) : items.eraseDups.Nodup := by
  induction items using List.reverseRecOn with
  | nil => exact List.nodup_nil
  | append_singleton items item ih =>
    rw [eraseDups_snoc]
    split
    · exact ih
    · rename_i fresh
      exact List.nodup_append_comm.mp (List.nodup_cons.mpr ⟨fresh, ih⟩)

/-! ### Names and edits of hosts -/

/-- The name of the host in place of that of the document. Versions of a synthetic document are not
those of the host. -/
def Identifier.housed (document : Identifier) : Identifier :=
  match Alias.parse? document.uri with
  | none => document
  | some source => { type := "OptionalVersionedTextDocumentIdentifier", uri := source.host }

@[simp] theorem Identifier.housed_uri (document : Identifier) :
    document.housed.uri = Alias.hostOf document.uri := by
  unfold housed Alias.hostOf
  cases Alias.parse? document.uri <;> rfl

namespace DocumentChange

/-- The document that a change edits, and how. -/
def edited? : DocumentChange → Option (String × List TextEdit)
  | edit change => some (change.document.uri, change.edits)
  | _ => none

/-- The host whose text a change is for. -/
def target? (change : DocumentChange) : Option String :=
  change.edited?.map fun edited => Alias.hostOf edited.1

/-- Two changes that are for the text of the same host. -/
def sameTarget (change other : DocumentChange) : Bool :=
  change.target?.isSome && change.target? = other.target?

/-- Hosts in place of all documents. -/
def housed : DocumentChange → DocumentChange
  | edit change => edit { change with document := change.document.housed }
  | create uri rest => create (Alias.hostOf uri) rest
  | delete uri rest => delete (Alias.hostOf uri) rest
  | rename oldUri newUri rest => rename (Alias.hostOf oldUri) (Alias.hostOf newUri) rest
  | other value => other value

/-- The edits that belong to the edited document, and the rest of the change as it is. -/
def withEdits (editsOf : String → List TextEdit) : DocumentChange → DocumentChange
  | edit change => edit { change with edits := editsOf change.document.uri }
  | unchanged => unchanged

end DocumentChange

namespace Store

variable {store : Store}

/-- An edit of a named document as one of its host. It is lost if the document is synthetic and the
range has no place in the host. -/
def carried (store : Store) (uri : String) (edit : TextEdit) : Option TextEdit :=
  match Alias.parse? uri with
  | none => some edit
  | some source =>
    (store.mapRange source.host source.language edit.range).toOption.map fun range =>
      { edit with range := range }

/-- All edits for a host, in the order in which they are listed under the names of its documents. -/
def gather (store : Store) (edits : List (String × List TextEdit)) (target : String) :
    List TextEdit :=
  edits.flatMap fun edited =>
    if Alias.hostOf edited.1 = target then edited.2.filterMap (store.carried edited.1) else []

theorem retarget_eq (uri : String) (edits : List TextEdit) :
    store.retarget uri edits = (Alias.hostOf uri, edits.filterMap (store.carried uri)) := by
  unfold retarget carried Alias.hostOf
  cases Alias.parse? uri with
  | none => simp
  | some source =>
    simp only [Prod.mk.injEq, true_and]
    refine List.filterMap_congr fun edit _ => ?_
    unfold mapEdit
    cases store.mapRange source.host source.language edit.range <;> rfl

theorem gather_snoc (edits : List (String × List TextEdit)) (edited : String × List TextEdit)
    (target : String) :
    store.gather (edits ++ [edited]) target = store.gather edits target ++
      if Alias.hostOf edited.1 = target then edited.2.filterMap (store.carried edited.1) else [] := by
  simp [gather]

theorem gather_eq_nil {edits : List (String × List TextEdit)} {target : String}
    (absent : target ∉ edits.map fun edited => Alias.hostOf edited.1) :
    store.gather edits target = [] := by
  refine List.flatMap_eq_nil_iff.mpr fun edited member => if_neg ?_
  rintro rfl
  exact absent (List.mem_map_of_mem member)

theorem renameTarget_eq (document : Identifier) :
    renameTarget document (Alias.hostOf document.uri) = document.housed := by
  unfold renameTarget Identifier.housed Alias.hostOf
  cases parsed : Alias.parse? document.uri with
  | none => simp
  | some source => simp [Alias.host_ne_of_parse? parsed]

/-! ### Edits by document -/

/-- All edits, host by host in the order in which the hosts come up. -/
def byHost (store : Store) (edits : List (String × List TextEdit)) :
    List (String × List TextEdit) :=
  (edits.map fun edited => Alias.hostOf edited.1).eraseDups.map fun target =>
    (target, store.gather edits target)

theorem nodup_byHost (edits : List (String × List TextEdit)) :
    ((store.byHost edits).map Prod.fst).Nodup := by
  have names : (store.byHost edits).map Prod.fst =
      (edits.map fun edited => Alias.hostOf edited.1).eraseDups := by
    simp [byHost, Function.comp_def]
  rw [names]
  exact nodup_eraseDups _

theorem mergeChange_eq (merged : Table String (List TextEdit)) (change : String × List TextEdit) :
    store.mergeChange merged change =
      merged.put (store.retarget change.1 change.2).1
        ((merged.get? (store.retarget change.1 change.2).1).getD [] ++
          (store.retarget change.1 change.2).2) :=
  rfl

theorem mapChanges_eq (changes : List (String × List TextEdit)) :
    store.mapChanges changes = store.byHost changes := by
  have table : changes.foldl store.mergeChange {} = ⟨store.byHost changes⟩ := by
    induction changes using List.reverseRecOn with
    | nil => rfl
    | append_singleton changes change ih =>
      unfold byHost at ih ⊢
      rw [List.foldl_append, List.foldl_cons, List.foldl_nil, ih, mergeChange_eq, retarget_eq,
        Table.get?_tabulate, Table.put_tabulate, List.map_append, List.map_singleton,
        eraseDups_snoc]
      congr 1
      refine List.map_congr_left fun target _ => ?_
      rw [gather_snoc]
      by_cases same : target = Alias.hostOf change.1
      · subst same
        rw [if_pos rfl, if_pos rfl]
        split
        · rfl
        · rename_i fresh
          rw [Option.getD_none, gather_eq_nil (by simpa using fresh)]
      · rw [if_neg same, if_neg (Ne.symm same), List.append_nil]
  exact congrArg Table.entries table

/-! ### Edits among other changes -/

/-- The changes that stay: the first edit for each host, and all that are not edits. -/
def kept (changes : List DocumentChange) : List DocumentChange :=
  changes.eraseDupsBy DocumentChange.sameTarget

theorem any_sameTarget {change : DocumentChange} {changes : List DocumentChange} :
    changes.any change.sameTarget = true ↔
      ∃ target, change.target? = some target ∧ target ∈ changes.filterMap DocumentChange.target? := by
  simp only [List.any_eq_true, DocumentChange.sameTarget, Bool.and_eq_true, Option.isSome_iff_exists,
    decide_eq_true_eq, List.mem_filterMap]
  constructor
  · rintro ⟨other, member, ⟨target, known⟩, same⟩
    exact ⟨target, known, other, member, same ▸ known⟩
  · rintro ⟨target, known, other, member, same⟩
    exact ⟨other, member, ⟨target, known⟩, known.trans same.symm⟩

theorem kept_snoc_of_new {changes : List DocumentChange} {change : DocumentChange}
    (new : ∀ target, change.target? = some target →
      target ∉ (kept changes).filterMap DocumentChange.target?) :
    kept (changes ++ [change]) = kept changes ++ [change] := by
  unfold kept at new ⊢
  rw [eraseDupsBy_snoc, if_neg]
  rw [any_sameTarget]
  rintro ⟨target, known, member⟩
  exact new target known member

theorem kept_snoc_of_known {changes : List DocumentChange} {change : DocumentChange}
    {target : String} (known : change.target? = some target)
    (member : target ∈ (kept changes).filterMap DocumentChange.target?) :
    kept (changes ++ [change]) = kept changes := by
  unfold kept at member ⊢
  rw [eraseDupsBy_snoc, if_pos (any_sameTarget.mpr ⟨target, known, member⟩)]

theorem kept_subset (changes : List DocumentChange) : kept changes ⊆ changes := by
  induction changes using List.reverseRecOn with
  | nil => exact List.Subset.refl _
  | append_singleton changes change ih =>
    rw [kept, eraseDupsBy_snoc]
    split
    · exact List.subset_append_of_subset_left _ ih
    · exact List.append_subset.mpr ⟨List.subset_append_of_subset_left _ ih,
        List.subset_append_right _ _⟩

theorem targets_kept (changes : List DocumentChange) :
    (kept changes).filterMap DocumentChange.target? =
      (changes.filterMap DocumentChange.target?).eraseDups := by
  induction changes using List.reverseRecOn with
  | nil => rfl
  | append_singleton changes change ih =>
    rw [List.filterMap_append]
    cases known : change.target? with
    | none =>
      rw [kept_snoc_of_new (by simp [known]), List.filterMap_append, ih]
      simp [known]
    | some target =>
      rw [List.filterMap_cons_some known, List.filterMap_nil, eraseDups_snoc, ← ih]
      split
      · rename_i member
        rw [kept_snoc_of_known known member]
      · rename_i fresh
        rw [kept_snoc_of_new (by simpa [known] using fresh), List.filterMap_append,
          List.filterMap_cons_some known, List.filterMap_nil]

theorem filter_kept (changes : List DocumentChange) :
    (kept changes).filter (fun change => change.edited?.isNone) =
      changes.filter fun change => change.edited?.isNone := by
  induction changes using List.reverseRecOn with
  | nil => rfl
  | append_singleton changes change ih =>
    by_cases member : ∃ target, change.target? = some target ∧
        target ∈ (kept changes).filterMap DocumentChange.target?
    · obtain ⟨target, known, member⟩ := member
      have edits : change.edited?.isNone = false := by
        obtain ⟨edited, edits, _⟩ := Option.map_eq_some_iff.mp known
        simp [edits]
      rw [kept_snoc_of_known known member, List.filter_append, ih]
      simp [edits]
    · rw [kept_snoc_of_new fun target known inside => member ⟨target, known, inside⟩,
        List.filter_append, List.filter_append, ih]

/-! ### The merged changes -/

/-- A change with all the edits of its host. -/
def completed (store : Store) (changes : List DocumentChange) (change : DocumentChange) :
    DocumentChange :=
  change.housed.withEdits (store.gather (changes.filterMap DocumentChange.edited?))

theorem completed_edit (changes : List DocumentChange) (edit : TextDocumentEdit) :
    store.completed changes (.edit edit) = .edit { edit with
      document := edit.document.housed
      edits := store.gather (changes.filterMap DocumentChange.edited?)
        (Alias.hostOf edit.document.uri) } := by
  simp [completed, DocumentChange.housed, DocumentChange.withEdits]

theorem completed_of_not_edit (changes : List DocumentChange) {change : DocumentChange}
    (other : change.edited? = none) : store.completed changes change = change.housed := by
  cases change with
  | edit => simp [DocumentChange.edited?] at other
  | create | delete | rename | other => rfl

theorem edited?_completed (changes : List DocumentChange) (change : DocumentChange) :
    (store.completed changes change).edited? = change.target?.map fun target =>
      (target, store.gather (changes.filterMap DocumentChange.edited?) target) := by
  cases change with
  | edit edit => simp [completed_edit, DocumentChange.edited?, DocumentChange.target?]
  | create | delete | rename | other => rfl

theorem filterMap_edited?_completed (before changes : List DocumentChange) :
    (before.map (store.completed changes)).filterMap DocumentChange.edited? =
      (before.filterMap DocumentChange.target?).map fun target =>
        (target, store.gather (changes.filterMap DocumentChange.edited?) target) := by
  rw [List.filterMap_map, List.map_filterMap]
  exact List.filterMap_congr fun change _ => edited?_completed changes change

theorem gather_snoc_edit (changes : List DocumentChange) (edit : TextDocumentEdit)
    (target : String) :
    store.gather ((changes ++ [DocumentChange.edit edit]).filterMap DocumentChange.edited?) target =
      store.gather (changes.filterMap DocumentChange.edited?) target ++
        if Alias.hostOf edit.document.uri = target then
          edit.edits.filterMap (store.carried edit.document.uri)
        else [] := by
  rw [List.filterMap_append]
  exact gather_snoc _ (edit.document.uri, edit.edits) target

/-- Another edit of a host reaches the change that stands for the host, and no other. -/
theorem extendEdit_completed (before changes : List DocumentChange) (edit : TextDocumentEdit) :
    extendEdit (before.map (store.completed changes)) (Alias.hostOf edit.document.uri)
        (edit.edits.filterMap (store.carried edit.document.uri)) =
      before.map (store.completed (changes ++ [.edit edit])) := by
  unfold extendEdit
  rw [List.map_map]
  refine List.map_congr_left fun change _ => ?_
  cases change with
  | edit first =>
    simp only [Function.comp_apply, completed_edit, gather_snoc_edit, Identifier.housed_uri]
    by_cases same : Alias.hostOf first.document.uri = Alias.hostOf edit.document.uri
    · rw [if_pos same, if_pos same.symm]
    · rw [if_neg same, if_neg (Ne.symm same), List.append_nil]
  | create | delete | rename | other => rfl

theorem completed_snoc_of_new {before changes : List DocumentChange} {edit : TextDocumentEdit}
    (fresh : Alias.hostOf edit.document.uri ∉ before.filterMap DocumentChange.target?) :
    before.map (store.completed (changes ++ [.edit edit])) =
      before.map (store.completed changes) := by
  refine List.map_congr_left fun change member => ?_
  cases change with
  | edit first =>
    have apart : Alias.hostOf edit.document.uri ≠ Alias.hostOf first.document.uri :=
      fun same => fresh (List.mem_filterMap.mpr ⟨_, member, congrArg some same.symm⟩)
    rw [completed_edit, completed_edit, gather_snoc_edit, if_neg apart, List.append_nil]
  | create | delete | rename | other => rfl

theorem mergeDocumentChange_of_not_edit (changes : List DocumentChange) {change : DocumentChange}
    (other : change.edited? = none) :
    store.mergeDocumentChange changes change = changes ++ [change.housed] := by
  cases change with
  | edit => simp [DocumentChange.edited?] at other
  | create | delete | rename | other => rfl

theorem mergeDocumentChange_edit (changes : List DocumentChange) (edit : TextDocumentEdit) :
    store.mergeDocumentChange changes (.edit edit) =
      if edits changes (Alias.hostOf edit.document.uri) then
        extendEdit changes (Alias.hostOf edit.document.uri)
          (edit.edits.filterMap (store.carried edit.document.uri))
      else
        changes ++ [.edit { edit with
          document := edit.document.housed
          edits := edit.edits.filterMap (store.carried edit.document.uri) }] := by
  simp only [mergeDocumentChange, retarget_eq, renameTarget_eq]

theorem edits_iff {changes : List DocumentChange} {target : String} :
    edits changes target = true ↔
      target ∈ (changes.filterMap DocumentChange.edited?).map Prod.fst := by
  simp only [edits, List.any_eq_true, List.mem_map, List.mem_filterMap]
  constructor
  · rintro ⟨change, member, same⟩
    cases change with
    | edit change => exact ⟨_, ⟨_, member, rfl⟩, by simpa using same⟩
    | create | delete | rename | other => simp at same
  · rintro ⟨edited, ⟨change, member, found⟩, rfl⟩
    refine ⟨change, member, ?_⟩
    cases change with
    | edit change =>
      cases found
      simp
    | create | delete | rename | other => simp [DocumentChange.edited?] at found

theorem edits_completed {before changes : List DocumentChange} {target : String} :
    edits (before.map (store.completed changes)) target = true ↔
      target ∈ before.filterMap DocumentChange.target? := by
  rw [edits_iff, filterMap_edited?_completed, List.map_map]
  simp

theorem filterMap_target? (changes : List DocumentChange) :
    changes.filterMap DocumentChange.target? =
      (changes.filterMap DocumentChange.edited?).map fun edited => Alias.hostOf edited.1 := by
  rw [List.map_filterMap]
  rfl

/-- Each kept change stands where it stood and has all the edits of its host. -/
theorem mapDocumentChanges_eq (changes : List DocumentChange) :
    store.mapDocumentChanges changes = (kept changes).map (store.completed changes) := by
  unfold mapDocumentChanges
  induction changes using List.reverseRecOn with
  | nil => rfl
  | append_singleton changes change ih =>
    rw [List.foldl_append, List.foldl_cons, List.foldl_nil, ih]
    cases isEdit : change.edited? with
    | none =>
      have untargeted : change.target? = none := by simp [DocumentChange.target?, isEdit]
      rw [mergeDocumentChange_of_not_edit _ isEdit, kept_snoc_of_new (by simp [untargeted]),
        List.map_append, List.map_singleton, completed_of_not_edit _ isEdit]
      simp [completed, isEdit]
    | some edited =>
      cases change with
      | create | delete | rename | other => simp [DocumentChange.edited?] at isEdit
      | edit edit =>
        have target : (DocumentChange.edit edit).target? =
            some (Alias.hostOf edit.document.uri) := rfl
        rw [mergeDocumentChange_edit]
        by_cases known : Alias.hostOf edit.document.uri ∈
            (kept changes).filterMap DocumentChange.target?
        · rw [if_pos (edits_completed.mpr known), extendEdit_completed,
            kept_snoc_of_known target known]
        · have none : store.gather (changes.filterMap DocumentChange.edited?)
              (Alias.hostOf edit.document.uri) = [] := by
            refine gather_eq_nil ?_
            rwa [targets_kept, List.mem_eraseDups, filterMap_target?] at known
          rw [if_neg (mt edits_completed.mp known),
            kept_snoc_of_new (by simpa [target] using known), List.map_append,
            completed_snoc_of_new known, List.map_singleton, completed_edit,
            gather_snoc_edit, none, if_pos rfl, List.nil_append]

theorem edited_mapDocumentChanges (changes : List DocumentChange) :
    (store.mapDocumentChanges changes).filterMap DocumentChange.edited? =
      store.byHost (changes.filterMap DocumentChange.edited?) := by
  rw [mapDocumentChanges_eq, filterMap_edited?_completed, targets_kept, filterMap_target?]
  rfl

theorem others_mapDocumentChanges (changes : List DocumentChange) :
    (store.mapDocumentChanges changes).filter (fun change => change.edited?.isNone) =
      (changes.filter fun change => change.edited?.isNone).map DocumentChange.housed := by
  rw [mapDocumentChanges_eq, List.filter_map, ← filter_kept]
  have same : ((fun change : DocumentChange => change.edited?.isNone) ∘ store.completed changes) =
      fun change => change.edited?.isNone := by
    funext change
    simp [edited?_completed, DocumentChange.target?]
  rw [same]
  refine List.map_congr_left fun change member => completed_of_not_edit _ ?_
  simpa using (List.mem_filter.mp member).2

theorem changes_mapWorkspaceEdit (edit : WorkspaceEdit) :
    (store.mapWorkspaceEdit edit).changes.getD [] = store.mapChanges (edit.changes.getD []) := by
  unfold mapWorkspaceEdit
  cases edit.changes <;> rfl

theorem documentChanges_mapWorkspaceEdit (edit : WorkspaceEdit) :
    (store.mapWorkspaceEdit edit).documentChanges.getD [] =
      store.mapDocumentChanges (edit.documentChanges.getD []) := by
  unfold mapWorkspaceEdit
  cases edit.documentChanges <;> rfl

/-- Every edit stays with its own host, in both forms of an edit of the workspace: under each host
stand the edits of its documents, in their order and without those that have no place in the host.
An edit of a document stands where the first edit for the host stood, and whatever else happens to
files happens in its old order. -/
theorem mapWorkspaceEdit_keeps_edits_with_hosts (store : Store) (edit : WorkspaceEdit) :
    (store.mapWorkspaceEdit edit).rest = edit.rest ∧
    (store.mapWorkspaceEdit edit).changes = edit.changes.map store.byHost ∧
    (((store.mapWorkspaceEdit edit).changes.getD []).map Prod.fst).Nodup ∧
    (store.mapWorkspaceEdit edit).documentChanges = edit.documentChanges.map (fun changes =>
      (changes.eraseDupsBy DocumentChange.sameTarget).map fun change =>
        change.housed.withEdits (store.gather (changes.filterMap DocumentChange.edited?))) ∧
    ((store.mapWorkspaceEdit edit).documentChanges.getD []).filterMap DocumentChange.edited? =
      store.byHost ((edit.documentChanges.getD []).filterMap DocumentChange.edited?) ∧
    (((store.mapWorkspaceEdit edit).documentChanges.getD []).filterMap
      DocumentChange.edited? |>.map Prod.fst).Nodup ∧
    ((store.mapWorkspaceEdit edit).documentChanges.getD []).filter
        (fun change => change.edited?.isNone) =
      ((edit.documentChanges.getD []).filter fun change => change.edited?.isNone).map
        DocumentChange.housed := by
  have byDocument : (store.mapWorkspaceEdit edit).changes.getD [] =
      store.byHost (edit.changes.getD []) := by
    unfold mapWorkspaceEdit
    cases edit.changes with
    | none => rfl
    | some changes => exact mapChanges_eq changes
  have inOrder : (store.mapWorkspaceEdit edit).documentChanges.getD [] =
      store.mapDocumentChanges (edit.documentChanges.getD []) := by
    unfold mapWorkspaceEdit
    cases edit.documentChanges <;> rfl
  rw [byDocument, inOrder, edited_mapDocumentChanges]
  exact ⟨rfl, congrArg edit.changes.map (funext mapChanges_eq), nodup_byHost _,
    congrArg edit.documentChanges.map (funext mapDocumentChanges_eq), rfl, nodup_byHost _,
    others_mapDocumentChanges _⟩

end Store

end LanguageBridge
