import LanguageBridge.Alias
import LanguageBridge.Protocol.Method
import LanguageBridge.Protocol.Params
import LanguageBridge.Table

namespace LanguageBridge

/-! Requests under way. A context holds what is needed to bring the answer of a child server back
to the host document. -/

structure Context where
  id : Nat
  method : Method
  host : String
  aliasUri : String
  language : String
  params : Params
  /-- The host range that was asked for, or null if the request was not about a range. -/
  hostRange : Value := .null
deriving Repr, Inhabited

namespace Context

def restored (context : Context) : Context :=
  { context with params := context.params.setUri context.host }

def restore (context : Context) : Except Fault Context :=
  (context.params.restoreUri context.host).map fun params => { context with params := params }

/-- Whether the parameters are about a proper document, and a proper range if about one. -/
def isRegular (context : Context) : Bool :=
  context.params.isAddressable &&
    (context.hostRange.isNull || context.hostRange.range?.isSome)

end Context

/-- Contexts by number. Numbers count up from one and are never given twice. -/
structure Pending where
  next : Nat := 1
  contexts : Table Nat Context := {}
deriving Repr, Inhabited

namespace Pending

def size (pending : Pending) : Nat :=
  pending.contexts.size

def contains (pending : Pending) (id : Nat) : Bool :=
  pending.contexts.contains id

/-- Enters a request; a number is used up even if the request has no alias. -/
def record (pending : Pending) (method : Method) (host language : String) (params : Params)
    (hostRange : Value) : Pending × Except Fault Context :=
  let advanced := { pending with next := pending.next + 1 }
  match Alias.encode host language with
  | .error fault => (advanced, .error fault)
  | .ok aliasUri =>
    let context : Context :=
      ⟨pending.next, method, host, aliasUri, language, params, hostRange⟩
    ({ advanced with contexts := pending.contexts.put context.id context }, .ok context)

def discard (pending : Pending) (id : Nat) : Pending :=
  { pending with contexts := pending.contexts.erase id }

/-- Takes a request out; each can be taken once. -/
def consume (pending : Pending) (id : Nat) : Except Fault (Context × Pending) :=
  match pending.contexts.get? id with
  | some context => .ok (context, pending.discard id)
  | none => .error (.unknownRequest id)

end Pending

end LanguageBridge
