import LanguageBridge.Mapping.Coordinates
import LanguageBridge.Protocol.Answer
import LanguageBridge.Routing.Context

namespace LanguageBridge

/-! Workspace edits and renames. Each edit goes to the host of its own document, and the edits of
several synthetic documents of one host come together. -/

namespace Store

def mergeChange (store : Store) (merged : Table String (List TextEdit))
    (change : String × List TextEdit) : Table String (List TextEdit) :=
  let (target, mapped) := store.retarget change.1 change.2
  merged.put target ((merged.get? target).getD [] ++ mapped)

def mapChanges (store : Store) (changes : List (String × List TextEdit)) :
    List (String × List TextEdit) :=
  (changes.foldl store.mergeChange {}).entries

def edits (changes : List DocumentChange) (target : String) : Bool :=
  changes.any fun
    | .edit edit => edit.document.uri = target
    | _ => false

def extendEdit (changes : List DocumentChange) (target : String) (more : List TextEdit) :
    List DocumentChange :=
  changes.map fun
    | .edit edit =>
      if edit.document.uri = target then .edit { edit with edits := edit.edits ++ more }
      else .edit edit
    | unchanged => unchanged

/-- Versions of synthetic documents mean nothing to the host. -/
def renameTarget (document : Identifier) (target : String) : Identifier :=
  if target = document.uri then document
  else { type := "OptionalVersionedTextDocumentIdentifier", uri := target }

def mergeDocumentChange (store : Store) (changes : List DocumentChange) (change : DocumentChange) :
    List DocumentChange :=
  match change with
  | .edit edit =>
    let (target, mapped) := store.retarget edit.document.uri edit.edits
    if edits changes target then extendEdit changes target mapped
    else
      changes ++ [.edit { edit with
        document := renameTarget edit.document target, edits := mapped }]
  | .create uri rest => changes ++ [.create (Alias.hostOf uri) rest]
  | .delete uri rest => changes ++ [.delete (Alias.hostOf uri) rest]
  | .rename oldUri newUri rest =>
    changes ++ [.rename (Alias.hostOf oldUri) (Alias.hostOf newUri) rest]
  | .other value => changes ++ [.other value]

def mapDocumentChanges (store : Store) (changes : List DocumentChange) : List DocumentChange :=
  changes.foldl store.mergeDocumentChange []

def mapWorkspaceEdit (store : Store) (edit : WorkspaceEdit) : WorkspaceEdit :=
  { edit with
    changes := edit.changes.map store.mapChanges
    documentChanges := edit.documentChanges.map store.mapDocumentChanges }

def mapRenameItem (store : Store) : Item → Item
  | .workspaceEdit edit => .workspaceEdit (store.mapWorkspaceEdit edit)
  | other => other

def mapRename (store : Store) (answer : Answer) : Answer :=
  answer.restore (answer.items.map store.mapRenameItem)

/-- A range that no longer maps cannot be renamed. -/
def mapRenameProposal (store : Store) (context : Context) (answer : Answer) : Answer :=
  match answer with
  | .one (.range range) =>
    match store.mapRange context.host context.language range with
    | .ok mapped => .one (.range mapped)
    | .error _ => .null
  | .one (.renamePlaceholder placeholder) =>
    match store.mapRange context.host context.language placeholder.range with
    | .ok mapped => .one (.renamePlaceholder { placeholder with range := mapped })
    | .error _ => .null
  | other => other

/-! ### Data of any shape -/

/-- As `retarget`: edits of a real document may be anything that holds something. -/
def retargetValue (store : Store) (uri edits : Value) : Except Fault (Value × List Value) :=
  match uri.text?.bind Alias.parse? with
  | none => edits.elements.map fun items => (uri, items)
  | some source => do
      let items ← edits.elements
      let kept ← keepMapped (store.mapEditValue source.host source.language) none items
      .ok (.str source.host, kept)

def mergeEntry (merged : Table String (List Value)) (target : String) (edits : List Value) :
    Table String (List Value) :=
  merged.put target ((merged.get? target).getD [] ++ edits)

def mergeEntries (store : Store) (merged : Table String (List Value)) :
    List (String × Value) → Except Fault (Table String (List Value))
  | [] => .ok merged
  | (uri, edits) :: rest =>
    match store.retargetValue (.str uri) edits with
    | .error fault => .error fault
    | .ok (_, mapped) =>
      store.mergeEntries (mergeEntry merged (Alias.hostOf uri) mapped) rest

def mapChangesValue (store : Store) (changes : Value) : Except Fault Value :=
  match changes with
  | .map entries =>
    (store.mergeEntries {} entries).map fun merged =>
      .map (merged.entries.map fun entry => (entry.1, .list entry.2))
  | other => do
      let items ← other.part "items"
      .error (.notAnOperation items)

def editedUri? (change : Value) : Option Value :=
  match change with
  | .record "TextDocumentEdit" fields =>
    ((Fields.get? fields "textDocument").bind fun document => (document.part "uri").toOption)
  | _ => none

def editsUri (target : Value) (change : Value) : Bool :=
  match editedUri? change, target with
  | some (.str uri), .str wanted => uri = wanted
  | _, _ => false

def extendEditValue (target : Value) (more : List Value) (change : Value) : Value :=
  match editsUri target change, change.part "edits" with
  | true, .ok (.list edits) => change.setPart "edits" (.list (edits ++ more))
  | _, _ => change

def mergeTextDocumentEdit (store : Store) (changes : List Value) (change : Value) :
    Except Fault (List Value) := do
  let document ← change.part "textDocument"
  let uri ← document.part "uri"
  let edits ← change.part "edits"
  let (target, mapped) ← store.retargetValue uri edits
  if changes.any (editsUri target) then .ok (changes.map (extendEditValue target mapped))
  else
    let renamed :=
      if (uri.text?.bind Alias.parse?).isSome then
        change.setPart "textDocument"
          (.record "OptionalVersionedTextDocumentIdentifier" [("uri", target)])
      else change
    .ok (changes ++ [renamed.setPart "edits" (.list mapped)])

def hostPart (name : String) (change : Value) : Except Fault Value :=
  change.changePart name fun uri => .ok (Alias.hostOfValue uri)

def mergeChangeValue (store : Store) (changes : List Value) (change : Value) :
    Except Fault (List Value) :=
  match change with
  | .record "TextDocumentEdit" _ => store.mergeTextDocumentEdit changes change
  | .record "CreateFile" _ => (hostPart "uri" change).map fun named => changes ++ [named]
  | .record "DeleteFile" _ => (hostPart "uri" change).map fun named => changes ++ [named]
  | .record "RenameFile" _ => do
      let named ← hostPart "oldUri" change
      let renamed ← hostPart "newUri" named
      .ok (changes ++ [renamed])
  | other => .ok (changes ++ [other])

def mergeChangeValues (store : Store) (merged : List Value) :
    List Value → Except Fault (List Value)
  | [] => .ok merged
  | change :: rest =>
    match store.mergeChangeValue merged change with
    | .error fault => .error fault
    | .ok grown => store.mergeChangeValues grown rest

def mapDocumentChangesValue (store : Store) (changes : Value) : Except Fault Value := do
  let items ← changes.elements
  let merged ← store.mergeChangeValues [] items
  .ok (.list merged)

def mapWorkspaceEditValue (store : Store) (edit : Value) : Except Fault Value := do
  let changed ← edit.changeFilledPart "changes" store.mapChangesValue
  changed.changeFilledPart "documentChanges" store.mapDocumentChangesValue

def bringEditBack (store : Store) (edit : Value) : Except Fault Value :=
  match Item.ofValue edit with
  | .workspaceEdit regular => .ok (store.mapWorkspaceEdit regular).toValue
  | irregular => store.mapWorkspaceEditValue irregular.toValue

def mapRenameValue (store : Store) (value : Value) : Except Fault Value :=
  match value with
  | .record "WorkspaceEdit" _ => store.mapWorkspaceEditValue value
  | other => .ok other

def mapRenameAnswer (store : Store) (answer : Value) : Except Fault Value :=
  match answer with
  | .list _ => answer.changeElements store.mapRenameValue
  | item => store.mapRenameValue item

def mapProposalValue (store : Store) (context : Context) (answer : Value) : Except Fault Value :=
  match answer with
  | .range _ => orNull (store.mapRangeValue context.host context.language answer)
  | .record "PrepareRenamePlaceholder" _ =>
    orNull (store.mapEditValue context.host context.language answer)
  | other => .ok other

end Store

end LanguageBridge
