import LanguageBridge.Protocol.Edit

namespace LanguageBridge

/-! Completions. -/

inductive CompletionEdit where
  | plain (edit : TextEdit)
  /-- Inserts at one range or replaces another, as the user chooses. -/
  | insertReplace (insert replace : Range) (rest : Fields)
  | other (value : Value)
deriving Repr, Inhabited

structure CompletionItem where
  /-- Whatever the child server needs to resolve the item later. -/
  data : Value := .null
  edit : Option CompletionEdit := none
  additionalEdits : Option (List TextEdit) := none
  rest : Fields := []
deriving Repr, Inhabited

inductive EditRange where
  | range (range : Range)
  | insertReplace (insert replace : Range) (rest : Fields)
deriving Repr, Inhabited

structure CompletionDefaults where
  editRange : Option EditRange := none
  rest : Fields := []
deriving Repr, Inhabited

structure CompletionList where
  items : List CompletionItem
  defaults : Option CompletionDefaults := none
  rest : Fields := []
deriving Repr, Inhabited

namespace CompletionEdit

def ofValue (value : Value) : CompletionEdit :=
  match value with
  | .record "TextEdit" _ => ((TextEdit.ofValue? value).map plain).getD (other value)
  | .record "InsertReplaceEdit" fields =>
    match Fields.range? fields "insert", Fields.range? fields "replace" with
    | some insert, some replace =>
      insertReplace insert replace (Fields.without fields ["insert", "replace"])
    | _, _ => other value
  | unknown => other unknown

def toValue : CompletionEdit → Value
  | plain edit => edit.toValue
  | insertReplace insert replace rest =>
    .record "InsertReplaceEdit" ([("insert", .range insert), ("replace", .range replace)] ++ rest)
  | other value => value

/-- An edit of another kind has no place that matters. -/
def isRegular : CompletionEdit → Bool
  | other (.record type _) => type ∉ ["TextEdit", "InsertReplaceEdit"]
  | _ => true

end CompletionEdit

namespace CompletionItem

def ofFields (fields : Fields) : CompletionItem :=
  let (additional, others) := Fields.take fields "additionalTextEdits" TextEdit.list?
  { data := (Fields.get? fields "data").getD .null
    edit := (Fields.get? fields "textEdit").map CompletionEdit.ofValue
    additionalEdits := additional
    rest := Fields.without others ["data", "textEdit"] }

def dataField : Value → Fields
  | .null => []
  | data => [("data", data)]

def toValue (item : CompletionItem) : Value :=
  .record "CompletionItem" (dataField item.data ++
    Fields.optional "textEdit" (item.edit.map CompletionEdit.toValue) ++
    Fields.optional "additionalTextEdits" (item.additionalEdits.map TextEdit.listValue) ++
    item.rest)

def ofValue? : Value → Option CompletionItem
  | .record "CompletionItem" fields => some (ofFields fields)
  | _ => none

def isRegular (item : CompletionItem) : Bool :=
  item.edit.all CompletionEdit.isRegular &&
    (Fields.get? item.rest "additionalTextEdits").isNone

def regular? (value : Value) : Option CompletionItem :=
  (ofValue? value).filter isRegular

end CompletionItem

namespace EditRange

def ofValue? : Value → Option EditRange
  | .range span => some (range span)
  | .record "EditRangeWithInsertReplace" fields =>
    match Fields.range? fields "insert", Fields.range? fields "replace" with
    | some insert, some replace =>
      some (insertReplace insert replace (Fields.without fields ["insert", "replace"]))
    | _, _ => none
  | _ => none

def toValue : EditRange → Value
  | range span => .range span
  | insertReplace insert replace rest =>
    .record "EditRangeWithInsertReplace"
      ([("insert", .range insert), ("replace", .range replace)] ++ rest)

end EditRange

namespace CompletionDefaults

def ofValue? : Value → Option CompletionDefaults
  | .record "CompletionItemDefaults" fields =>
    (Fields.maybe? fields "editRange" EditRange.ofValue?).map fun editRange =>
      ⟨editRange, Fields.without fields ["editRange"]⟩
  | _ => none

def toValue (defaults : CompletionDefaults) : Value :=
  .record "CompletionItemDefaults"
    (Fields.optional "editRange" (defaults.editRange.map EditRange.toValue) ++ defaults.rest)

end CompletionDefaults

namespace CompletionList

def items? (value : Value) : Option (List CompletionItem) :=
  value.list?.bind fun items => items.mapM CompletionItem.regular?

def ofFields? (fields : Fields) : Option CompletionList :=
  match (Fields.get? fields "items").bind items?,
    Fields.maybe? fields "itemDefaults" CompletionDefaults.ofValue? with
  | some items, some defaults =>
    some ⟨items, defaults, Fields.without fields ["items", "itemDefaults"]⟩
  | _, _ => none

def toValue (list : CompletionList) : Value :=
  .record "CompletionList" (("items", .list (list.items.map CompletionItem.toValue)) ::
    (Fields.optional "itemDefaults" (list.defaults.map CompletionDefaults.toValue) ++ list.rest))

end CompletionList

end LanguageBridge
