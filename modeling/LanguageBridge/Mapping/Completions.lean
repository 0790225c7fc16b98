import LanguageBridge.Mapping.Coordinates
import LanguageBridge.Protocol.Answer
import LanguageBridge.Routing.Context

namespace LanguageBridge

/-! Completions. All their ranges lie in the document of the request; their data may name it. -/

def hostData (data : Value) : Value :=
  match data.lookUp? "uri" with
  | some uri => data.setEntry "uri" (Alias.hostOfValue uri)
  | none => data

namespace Store

def mapCompletionEdit (store : Store) (context : Context) (edit : CompletionEdit) :
    Except Fault CompletionEdit :=
  match edit with
  | .plain edit => (store.mapEdit context.host context.language edit).map .plain
  | .insertReplace insert replace rest => do
      let insert ← store.mapRange context.host context.language insert
      let replace ← store.mapRange context.host context.language replace
      .ok (.insertReplace insert replace rest)
  | .other value => .ok (.other value)

def mapOptional {α : Type} (map : α → Except Fault α) : Option α → Except Fault (Option α)
  | none => .ok none
  | some part => (map part).map some

def mapCompletionItem (store : Store) (context : Context) (item : CompletionItem) :
    Except Fault CompletionItem := do
  let edit ← mapOptional (store.mapCompletionEdit context) item.edit
  let additional ← mapOptional (store.mapEdits context.host context.language) item.additionalEdits
  .ok { item with data := hostData item.data, edit := edit, additionalEdits := additional }

def mapEditRange (store : Store) (context : Context) (range : EditRange) :
    Except Fault EditRange :=
  match range with
  | .range range => (store.mapRange context.host context.language range).map .range
  | .insertReplace insert replace rest => do
      let insert ← store.mapRange context.host context.language insert
      let replace ← store.mapRange context.host context.language replace
      .ok (.insertReplace insert replace rest)

/-- A default range that cannot be mapped is left out. -/
def mapDefaults (store : Store) (context : Context) (defaults : CompletionDefaults) :
    CompletionDefaults :=
  { defaults with
    editRange := defaults.editRange.bind fun range => (store.mapEditRange context range).toOption }

def mapCompletionListItem (store : Store) (context : Context) (item : Item) : Option Item :=
  match item with
  | .completionItem completion =>
    (store.mapCompletionItem context completion).toOption.map .completionItem
  | other => some other

/-- A list with defaults stays one; anything else becomes a bare list. -/
def mapCompletions (store : Store) (context : Context) (answer : Answer) : Answer :=
  match answer with
  | .one (.completionList list) =>
    .one (.completionList { list with
      items := list.items.filterMap fun item => (store.mapCompletionItem context item).toOption
      defaults := list.defaults.map (store.mapDefaults context) })
  | other => .many (other.items.filterMap (store.mapCompletionListItem context))

def mapResolvedCompletion (store : Store) (context : Context) (answer : Answer) : Answer :=
  match answer with
  | .one (.completionItem item) =>
    match store.mapCompletionItem context item with
    | .ok mapped => .one (.completionItem mapped)
    | .error _ => .null
  | other => other

/-! ### Data of any shape -/

def mapEditValues (store : Store) (context : Context) (edits : Value) : Except Fault Value :=
  edits.changeElements (store.mapEditValue context.host context.language)

def mapInsertReplaceValue (store : Store) (context : Context) (edit : Value) :
    Except Fault Value := do
  let map := store.mapRangeValue context.host context.language
  let inserted ← edit.changePart "insert" map
  inserted.changePart "replace" map

def mapCompletionEditValue (store : Store) (context : Context) (edit : Value) :
    Except Fault Value :=
  match edit with
  | .record "TextEdit" _ => store.mapEditValue context.host context.language edit
  | .record "InsertReplaceEdit" _ => store.mapInsertReplaceValue context edit
  | other => .ok other

def mapCompletionValue (store : Store) (context : Context) (item : Value) :
    Except Fault Value := do
  let named ← item.changePart "data" fun data => .ok (hostData data)
  let edited ← named.changePart "textEdit" (store.mapCompletionEditValue context)
  edited.changeFilledPart "additionalTextEdits" (store.mapEditValues context)

/-- A list has something by the name of the first part that is looked for, but that is no range. -/
def mapEditRangeValue (store : Store) (context : Context) (range : Value) : Except Fault Value :=
  match range with
  | .range _ => store.mapRangeValue context.host context.language range
  | .list _ => .error Value.operation.rangeFault
  | other => store.mapInsertReplaceValue context other

def mapDefaultsValue (store : Store) (context : Context) (defaults : Value) :
    Except Fault Value :=
  match defaults.changePresentPart "editRange" (store.mapEditRangeValue context) with
  | .ok mapped => .ok mapped
  | .error fault =>
    if fault.isUnmappable then .ok (defaults.withoutPart "editRange") else .error fault

def mapCompletionListValue (store : Store) (context : Context) (list : Value) :
    Except Fault Value := do
  let items ← list.part "items"
  let given ← items.elements
  let kept ← keepMapped (store.mapCompletionValue context) none given
  (list.setPart "items" (.list kept)).changePresentPart "itemDefaults"
    (store.mapDefaultsValue context)

def mapCompletionAnswer (store : Store) (context : Context) (answer : Value) :
    Except Fault Value :=
  match answer with
  | .record "CompletionList" _ => store.mapCompletionListValue context answer
  | .list items => (keepMapped (store.mapCompletionValue context) none items).map .list
  | item => (keepMapped (store.mapCompletionValue context) none [item]).map .list

end Store

/-- Once resolved, the data of what was sent out names its host again. -/
def Context.restoreData (context : Context) : Context :=
  { context with params := context.params.setDataUri context.host }

end LanguageBridge
