import LanguageBridge.Service.Basic

namespace LanguageBridge

/-! What an editor sends, and what it gets back. -/

inductive ServiceCommand where
  | configure (options : Value)
  | start (rootUri rootPath : Option String) (options : Value)
  | shutdown
  | didOpen (uri text languageId : String)
  /-- The text of a document after changes; the document may be gone. -/
  | didChange (uri : String) (text : Option String) (changes : Value)
  | didClose (uri : String)
  | request (method : Method) (params : Params)
  | didChangeConfiguration (settings : Value)
  | receive (language : String) (message : Inbound)
deriving Repr

/-- How the editor sees the response of the bridge. -/
inductive View where
  | asIs
  /-- What does not apply is nothing. -/
  | applicable
  /-- Neither what does not apply nor an empty list is anything. -/
  | filled
deriving DecidableEq, Repr

def View.response (view : View) (response : Response) : Response :=
  match view, response with
  | .asIs, response => response
  | _, .notApplicable => .null
  | .filled, .answer (.many []) => .null
  | _, response => response

structure Ticket where
  bridge : Nat
  task : Nat
  view : View
deriving DecidableEq, Repr

/-- What a command has come to: it is settled, or has become a task. -/
inductive Receipt where
  | settled (outcome : Outcome)
  | task (ticket : Ticket)

namespace Service

def hand (service : Service) (bridge : Nat) (command : BridgeCommand) (view : View) :
    Receipt × Service :=
  let (task, handed) := service.within bridge (·.submit command)
  (.task ⟨bridge, task, view⟩, handed)

/-- What a request about a document asks of the bridge. Under what is no address there is no
document, and nothing to ask. -/
def aboutDocument (params : Params) (view : View)
    (ask : String → Except Fault BridgeCommand) : Except Fault (Option (BridgeCommand × View)) := do
  let address ← params.uri
  match ← address.keyText? with
  | none => .ok none
  | some uri => (ask uri).map fun asked => some (asked, view)

def requested (method : Method) (params : Params) : Except Fault (Option (BridgeCommand × View)) :=
  match method with
  | .completionResolve => .ok (some (.resolve params, .asIs))
  | .workspaceSymbol =>
    (params.toValue.part "query").map fun query => some (.search query, .filled)
  | .documentSymbol =>
    aboutDocument params .applicable fun uri => .ok (.dispatchAll uri method params)
  | .inlayHint => aboutDocument params .filled fun uri => .ok (.dispatchAll uri method params)
  | asked =>
    if asked ∈ Method.positional then
      aboutDocument params .applicable fun uri =>
        params.place.map fun place => .dispatch uri place asked params
    else
      .error (.unhandled asked.name)

def settled (configured : Service × Except Fault Unit) : Receipt × Service :=
  (.settled (configured.2.map fun _ => .null), configured.1)

def submit (service : Service) (command : ServiceCommand) : Receipt × Service :=
  match command with
  | .configure options => settled (service.configure options)
  | .start rootUri rootPath options => settled (service.start rootUri rootPath options)
  | .shutdown => service.hand service.active .shutdown .asIs
  | .didOpen uri text languageId =>
    service.hand service.active (.openHost uri text (some languageId)) .asIs
  | .didChange uri text changes =>
    match text with
    | none => (.settled (.ok .null), service)
    | some changed =>
      match ContentChange.linesOf changes with
      | .error fault => (.settled (.error fault), service)
      | .ok lines => service.hand service.active (.editHost uri changed lines) .asIs
  | .didClose uri => service.hand service.active (.closeHost uri) .asIs
  | .request method params =>
    match requested method params with
    | .error fault => (.settled (.error fault), service)
    | .ok none => (.settled (.ok .null), service)
    | .ok (some (asked, view)) => service.hand service.active asked view
  | .didChangeConfiguration settings =>
    service.hand service.active (.updateSettings settings) .asIs
  | .receive language message =>
    match service.speakers.get? language with
    | some bridge => service.hand bridge (.receive language message) .asIs
    | none => (.settled (.error (.unknownClient language)), service)

def outcome? (service : Service) (ticket : Ticket) : Option Outcome :=
  ((service.run ticket.bridge).finished.get? ticket.task).map fun outcome =>
    outcome.map ticket.view.response

def prepare (service : Service) (peer : Peer) (call : Call) (replies : List Reply) : Service :=
  { service with wire := service.wire.prepare peer call replies }

def release (service : Service) (key : String) (reply : Reply) : Bool × Service :=
  match service.runs.findIdx? fun run => run.held.contains key with
  | some bridge => service.within bridge (·.release key reply)
  | none => (false, service)

def cancel (service : Service) (ticket : Ticket) : Bool × Service :=
  service.within ticket.bridge (·.cancel ticket.task)

end Service

end LanguageBridge
