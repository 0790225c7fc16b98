import LanguageBridge.Child.Message
import LanguageBridge.Protocol.Answer
import LanguageBridge.Table

namespace LanguageBridge

/-! The far end of the wire: what the child servers and the editor will reply. A reply is given at
once or held back until it is released. -/

inductive Reply where
  | result (answer : Answer)
  | failure (text : String)
  /-- Nothing yet; the reply comes later under this key, or never. -/
  | hold (key : Option String)
deriving Repr, Inhabited

inductive Peer where
  | child (language : String)
  | editor
deriving DecidableEq, Repr

inductive Call where
  | spawn
  | handshake
  | shutdown
  | stop
  | request (method : Method)
  | createProgress
  | configuration
  | beginProgress
  | reportProgress
  | endProgress
  | forwardProgress
deriving DecidableEq, Repr

structure Wire where
  replies : Table (Peer × Call) (List Reply) := {}
  /-- The tokens under which progress was begun before an editor that does not reply. -/
  tokens : List Value.Key := []
  clients : Nat := 0
  effects : List Effect := []
deriving Repr, Inhabited

namespace Wire

def emit (wire : Wire) (effect : Effect) : Wire :=
  { wire with effects := wire.effects ++ [effect] }

def log (wire : Wire) (severity : Severity) (text : String) : Wire :=
  wire.emit (.logged severity text)

def prepare (wire : Wire) (peer : Peer) (call : Call) (replies : List Reply) : Wire :=
  { wire with
    replies := wire.replies.put (peer, call)
      ((wire.replies.get? (peer, call)).getD [] ++ replies) }

/-- The next reply to a call; without one, the call succeeds with nothing. -/
def take (wire : Wire) (peer : Peer) (call : Call) : Reply × Wire :=
  match wire.replies.get? (peer, call) with
  | some (reply :: rest) =>
    (reply, { wire with replies := wire.replies.put (peer, call) rest })
  | _ => (.result .null, wire)

end Wire

/-- A piece of work that has come to an end, or that waits for a held reply at some stage. Without
a key it waits for good. -/
inductive Attempt (σ α : Type) where
  | done (outcome : Except Fault α)
  | blocked (key : Option String) (stage : σ)

end LanguageBridge
