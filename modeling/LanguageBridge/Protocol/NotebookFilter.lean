import LanguageBridge.Protocol.Part

namespace LanguageBridge

/-! Filters for notebooks, as child servers announce them. A filter is a name, or a structure that
is made of plain data and told by the fields that are there. -/

namespace NotebookFilter

/-- A field that is null is as good as none. -/
def field (name : String) (value : Value) : Fields :=
  if value.isNull then [] else [(name, value)]

def required (type : String) (value : Value) (name : String)
    (read : Value → Except Fault Value) : Except Fault Fields :=
  match value.lookUp? name with
  | some entry => (read entry).map (field name)
  | none => .error (.unstructurable type value)

def optional (value : Value) (name : String) (read : Value → Except Fault Value) :
    Except Fault Fields :=
  match value.lookUp? name with
  | some .null | none => .ok []
  | some entry => (read entry).map (field name)

/-- Where a text is meant, anything is put into words. -/
def text (value : Value) : Except Fault Value :=
  .ok (.str value.asText)

/-- The folder that a pattern starts from, in full or by its address. An address is any plain data
and stays as it is. -/
def folder (value : Value) : Except Fault Value :=
  if value.key?.isSome then .ok value
  else do
    let uri ← required "WorkspaceFolder" value "uri" text
    let name ← required "WorkspaceFolder" value "name" text
    .ok (.record "WorkspaceFolder" (uri ++ name))

/-- A pattern for paths, below a folder or by itself. One by itself is any plain data and stays as
it is. -/
def pattern (value : Value) : Except Fault Value :=
  if value.key?.isSome then .ok value
  else do
    let base ← required "RelativePattern" value "baseUri" folder
    let path ← required "RelativePattern" value "pattern" text
    .ok (.record "RelativePattern" (base ++ path))

def ofType (value : Value) : Except Fault Value := do
  let notebookType ← required "NotebookDocumentFilterNotebookType" value "notebookType" text
  let scheme ← optional value "scheme" text
  let path ← optional value "pattern" pattern
  .ok (.record "NotebookDocumentFilterNotebookType" (notebookType ++ scheme ++ path))

def ofScheme (value : Value) : Except Fault Value := do
  let scheme ← required "NotebookDocumentFilterScheme" value "scheme" text
  let path ← optional value "pattern" pattern
  .ok (.record "NotebookDocumentFilterScheme" (scheme ++ path))

def ofPattern (value : Value) : Except Fault Value := do
  let path ← required "NotebookDocumentFilterPattern" value "pattern" pattern
  .ok (.record "NotebookDocumentFilterPattern" path)

/-- A filter by its type if it has one, or else by its scheme, or else by its pattern. A plain
name, or nothing, stays as it is. -/
def ofValue (value : Value) : Except Fault Value :=
  match value with
  | .null | .str _ => .ok value
  | .map entries =>
    if (entries.lookup "notebookType").isSome then ofType value
    else if (entries.lookup "scheme").isSome then ofScheme value
    else ofPattern value
  | .list _ => .error (.unstructurable "NotebookDocumentFilterPattern" value)
  | other => .error (.notAList other)

end NotebookFilter

end LanguageBridge
