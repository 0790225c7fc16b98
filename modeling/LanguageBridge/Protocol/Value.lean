import LanguageBridge.Protocol.Position

namespace LanguageBridge

/-! Data that passes through without being looked into: plain JSON, and protocol structures that
no rule of the bridge touches. -/

inductive Value where
  | null
  | bool (truth : Bool)
  | int (number : Int)
  | str (text : String)
  | list (items : List Value)
  | map (entries : List (String × Value))
  | position (position : Position)
  | range (range : Range)
  | record (type : String) (fields : List (String × Value))
deriving Repr, Inhabited

/-- Named parts of a structure that are carried along. -/
abbrev Fields := List (String × Value)

namespace Value

def lookUp? (value : Value) (key : String) : Option Value :=
  match value with
  | .map entries => entries.lookup key
  | _ => none

def isMap : Value → Bool
  | .map _ => true
  | _ => false

def setEntry (value : Value) (key : String) (new : Value) : Value :=
  match value with
  | .map entries => .map (entries.map fun entry => if entry.1 = key then (key, new) else entry)
  | other => other

def text? : Value → Option String
  | .str text => some text
  | _ => none

def range? : Value → Option Range
  | .range span => some span
  | _ => none

def position? : Value → Option Position
  | .position place => some place
  | _ => none

def list? : Value → Option (List Value)
  | .list items => some items
  | _ => none

/-- What data holds, one by one: the items of a list, the keys of a map, the characters of a
text. Other data is of one piece. -/
def elements? : Value → Option (List Value)
  | .list items => some items
  | .map entries => some (entries.map fun entry => .str entry.1)
  | .str text => some (text.toList.map fun c => .str (String.singleton c))
  | _ => none

inductive Key where
  | null
  | number (number : Int)
  | text (text : String)
deriving DecidableEq, Repr, Inhabited

/-- The key that data stands for. True and false are as good as one and zero, and data that has
parts is no key. -/
def key? : Value → Option Key
  | .null => some .null
  | .bool truth => some (.number (if truth then 1 else 0))
  | .int number => some (.number number)
  | .str text => some (.text text)
  | .list _ | .map _ | .position _ | .range _ | .record _ _ => none

/-- Structures that always say what kind they are, in this word. -/
def fixedKinds : List (String × String) :=
  [("CreateFile", "create"), ("RenameFile", "rename"), ("DeleteFile", "delete"),
   ("StringValue", "snippet"), ("WorkDoneProgressBegin", "begin"),
   ("WorkDoneProgressReport", "report"), ("WorkDoneProgressEnd", "end"),
   ("FullDocumentDiagnosticReport", "full"), ("RelatedFullDocumentDiagnosticReport", "full"),
   ("WorkspaceFullDocumentDiagnosticReport", "full"),
   ("UnchangedDocumentDiagnosticReport", "unchanged"),
   ("RelatedUnchangedDocumentDiagnosticReport", "unchanged"),
   ("WorkspaceUnchangedDocumentDiagnosticReport", "unchanged")]

def isNull : Value → Bool
  | .null => true
  | _ => false

/-- A structure of the protocol: a field without a value is left out, and a fixed kind is
given. -/
def structured (type : String) (fields : List (String × Value)) : Value :=
  let given := fields.filter fun field => !field.2.isNull
  match fixedKinds.lookup type with
  | some kind =>
    if (given.lookup "kind").isSome then .record type given
    else .record type (("kind", .str kind) :: given)
  | none => .record type given

/-- Nothing, zero, and everything empty count as absent. -/
def isFilled : Value → Bool
  | .null => false
  | .bool truth => truth
  | .int number => number ≠ 0
  | .str text => text ≠ ""
  | .list items => !items.isEmpty
  | .map entries => !entries.isEmpty
  | .position _ => true
  | .range _ => true
  | .record _ _ => true

end Value

namespace Fields

def get? (fields : Fields) (name : String) : Option Value :=
  fields.lookup name

def text? (fields : Fields) (name : String) : Option String :=
  (Fields.get? fields name).bind Value.text?

def range? (fields : Fields) (name : String) : Option Range :=
  (Fields.get? fields name).bind Value.range?

def list? (fields : Fields) (name : String) : Option (List Value) :=
  (Fields.get? fields name).bind Value.list?

def without (fields : Fields) (names : List String) : Fields :=
  fields.filter fun field => field.1 ∉ names

/-- Reads a field that need not be there. Nothing comes of a field that cannot be read. -/
def maybe? {α : Type} (fields : Fields) (name : String) (read : Value → Option α) :
    Option (Option α) :=
  match Fields.get? fields name with
  | none => some none
  | some value => (read value).map some

/-- Reads one field. The other fields remain; one that cannot be read is among them. -/
def take {α : Type} (fields : Fields) (name : String) (read : Value → Option α) :
    Option α × Fields :=
  match (Fields.get? fields name).bind read with
  | some part => (some part, Fields.without fields [name])
  | none => (none, fields)

def update (fields : Fields) (name : String) (change : Value → Value) : Fields :=
  fields.map fun field => if field.1 = name then (name, change field.2) else field

def put (fields : Fields) (name : String) (value : Value) : Fields :=
  if (Fields.get? fields name).isSome then Fields.update fields name fun _ => value
  else fields ++ [(name, value)]

def optional (name : String) (value : Option Value) : Fields :=
  match value with
  | some value => [(name, value)]
  | none => []

end Fields

end LanguageBridge
