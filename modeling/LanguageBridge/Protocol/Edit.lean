import LanguageBridge.Protocol.Location

namespace LanguageBridge

/-! Changes to texts and files. -/

structure TextEdit where
  type : String := "TextEdit"
  range : Range
  rest : Fields := []
deriving Repr, Inhabited

structure TextDocumentEdit where
  document : Identifier
  edits : List TextEdit
  rest : Fields := []
deriving Repr, Inhabited

inductive DocumentChange where
  | edit (edit : TextDocumentEdit)
  | create (uri : String) (rest : Fields)
  | delete (uri : String) (rest : Fields)
  | rename (oldUri newUri : String) (rest : Fields)
  | other (value : Value)
deriving Repr, Inhabited

structure WorkspaceEdit where
  changes : Option (List (String × List TextEdit)) := none
  documentChanges : Option (List DocumentChange) := none
  rest : Fields := []
deriving Repr, Inhabited

namespace TextEdit

/-- Any structure with a range can stand in a list of replacements. -/
def ofValue? : Value → Option TextEdit
  | .record type fields =>
    (Fields.range? fields "range").map fun range => ⟨type, range, Fields.without fields ["range"]⟩
  | _ => none

def toValue (edit : TextEdit) : Value :=
  .record edit.type (("range", .range edit.range) :: edit.rest)

def list? (value : Value) : Option (List TextEdit) :=
  value.list?.bind fun items => items.mapM ofValue?

def listValue (edits : List TextEdit) : Value :=
  .list (edits.map toValue)

end TextEdit

namespace TextDocumentEdit

def ofFields? (fields : Fields) : Option TextDocumentEdit :=
  match (Fields.get? fields "textDocument").bind Identifier.ofValue?,
    (Fields.get? fields "edits").bind TextEdit.list? with
  | some document, some edits =>
    some ⟨document, edits, Fields.without fields ["textDocument", "edits"]⟩
  | _, _ => none

def toValue (edit : TextDocumentEdit) : Value :=
  .record "TextDocumentEdit" ([("textDocument", edit.document.toValue),
    ("edits", TextEdit.listValue edit.edits)] ++ edit.rest)

end TextDocumentEdit

namespace DocumentChange

/-- A change of a kind that is not known is carried along. -/
def ofValue? (value : Value) : Option DocumentChange :=
  match value with
  | .record "TextDocumentEdit" fields => (TextDocumentEdit.ofFields? fields).map edit
  | .record "CreateFile" fields =>
    (Fields.text? fields "uri").map fun uri => create uri (Fields.without fields ["uri"])
  | .record "DeleteFile" fields =>
    (Fields.text? fields "uri").map fun uri => delete uri (Fields.without fields ["uri"])
  | .record "RenameFile" fields =>
    match Fields.text? fields "oldUri", Fields.text? fields "newUri" with
    | some oldUri, some newUri =>
      some (rename oldUri newUri (Fields.without fields ["oldUri", "newUri"]))
    | _, _ => none
  | unknown => some (other unknown)

def toValue : DocumentChange → Value
  | edit change => change.toValue
  | create uri rest => .record "CreateFile" (("uri", .str uri) :: rest)
  | delete uri rest => .record "DeleteFile" (("uri", .str uri) :: rest)
  | rename oldUri newUri rest =>
    .record "RenameFile" ([("oldUri", .str oldUri), ("newUri", .str newUri)] ++ rest)
  | other value => value

end DocumentChange

namespace WorkspaceEdit

def changes? (value : Value) : Option (List (String × List TextEdit)) :=
  match value with
  | .map entries =>
    entries.mapM fun entry => (TextEdit.list? entry.2).map fun edits => (entry.1, edits)
  | _ => none

def documentChanges? (value : Value) : Option (List DocumentChange) :=
  value.list?.bind fun items => items.mapM DocumentChange.ofValue?

def ofFields? (fields : Fields) : Option WorkspaceEdit :=
  match Fields.maybe? fields "changes" changes?,
    Fields.maybe? fields "documentChanges" documentChanges? with
  | some changes, some documentChanges =>
    some ⟨changes, documentChanges, Fields.without fields ["changes", "documentChanges"]⟩
  | _, _ => none

def changesValue (changes : List (String × List TextEdit)) : Value :=
  .map (changes.map fun entry => (entry.1, TextEdit.listValue entry.2))

def toValue (edit : WorkspaceEdit) : Value :=
  .record "WorkspaceEdit" (Fields.optional "changes" (edit.changes.map changesValue) ++
    Fields.optional "documentChanges"
      (edit.documentChanges.map fun changes => .list (changes.map DocumentChange.toValue)) ++
    edit.rest)

end WorkspaceEdit

end LanguageBridge
