import LanguageBridge.Protocol.Completion
import LanguageBridge.Protocol.Part

namespace LanguageBridge

/-! What is sent along with a request. -/

structure DocumentParams where
  type : String
  document : Identifier
  position : Option Position := none
  range : Option Range := none
  rest : Fields := []
deriving Repr, Inhabited

inductive Params where
  | document (params : DocumentParams)
  | item (item : CompletionItem)
  | other (value : Value)
deriving Repr, Inhabited

namespace Params

def setUri (params : Params) (uri : String) : Params :=
  match params with
  | .document about =>
    .document { about with document := { about.document with uri := uri } }
  | unchanged => unchanged

def setDataUri (params : Params) (uri : String) : Params :=
  let named (data : Value) : Value := data.setEntry "uri" (.str uri)
  match params with
  | .document about => .document { about with rest := Fields.update about.rest "data" named }
  | .item sent => .item { sent with data := named sent.data }
  | .other (.record type fields) => .other (.record type (Fields.update fields "data" named))
  | .other value => .other value

end Params

namespace DocumentParams

def ofFields? (type : String) (fields : Fields) : Option DocumentParams :=
  ((Fields.get? fields "textDocument").bind Identifier.ofValue?).map fun document =>
    let (position, others) := Fields.take fields "position" Value.position?
    let (range, rest) := Fields.take others "range" Value.range?
    ⟨type, document, position, range, Fields.without rest ["textDocument"]⟩

def toValue (params : DocumentParams) : Value :=
  .record params.type
    (("textDocument", params.document.toValue) ::
      (Fields.optional "position" (params.position.map .position) ++
        Fields.optional "range" (params.range.map .range) ++ params.rest))

end DocumentParams

namespace Params

def ofValue (value : Value) : Params :=
  match value with
  | .record "CompletionItem" fields => item (.ofFields fields)
  | .record type fields => ((DocumentParams.ofFields? type fields).map document).getD (other value)
  | unknown => other unknown

def toValue : Params → Value
  | document about => about.toValue
  | item completion => completion.toValue
  | other value => value

/-! ### Looking into parameters -/

def place (params : Params) : Except Fault Position :=
  match params with
  | document { position := some place, .. } => .ok place
  | others => do
      match ← others.toValue.part "position" with
      | .position place => .ok place
      | nowhere => .error (.missingPart nowhere "line")

def span (params : Params) : Except Fault Value :=
  match params with
  | document { range := some span, .. } => .ok (.range span)
  | others => others.toValue.part "range"

def uri (params : Params) : Except Fault Value :=
  match params with
  | document about => .ok (.str about.document.uri)
  | others => do
      let document ← others.toValue.part "textDocument"
      document.part "uri"

def data (params : Params) : Except Fault Value :=
  match params with
  | item completion => .ok completion.data
  | others => others.toValue.part "data"

/-! ### Addressing parameters -/

/-- Parameters of any kind about another document, at another place or range if one is given. A
structure must have a place for what it is given. -/
def readdressValue (params : Value) (uri : String) (place : Option Position)
    (span : Option Range) : Except Fault Params := do
  let addressed ← params.givePart "textDocument" (Identifier.toValue { uri := uri })
  let placed ← addressed.giveOptionalPart "position" (place.map .position)
  let spanned ← placed.giveOptionalPart "range" (span.map .range)
  .ok (.ofValue spanned)

def readdress (params : Params) (uri : String) (place : Option Position)
    (span : Option Range) : Except Fault Params :=
  match params with
  | document about =>
    if (place.isNone || about.position.isSome) && (span.isNone || about.range.isSome) then
      .ok (document { about with
        document := { uri := uri }
        position := place <|> about.position
        range := span <|> about.range })
    else
      readdressValue about.toValue uri place span
  | others => readdressValue others.toValue uri place span

/-- Whether parameters that are about a document say so properly. -/
def isAddressable : Params → Bool
  | other (.record _ fields) => (Fields.get? fields "textDocument").isNone
  | _ => true

def restoreUri (params : Params) (uri : String) : Except Fault Params :=
  match params with
  | other (.record type fields) =>
    match Fields.get? fields "textDocument" with
    | none => .ok params
    | some about => do
        let _ ← about.part "uri"
        let named ← about.givePart "uri" (.str uri)
        .ok (other (.record type (Fields.put fields "textDocument" named)))
  | others => .ok (others.setUri uri)

end Params

end LanguageBridge
