import LanguageBridge.Child.Server

namespace LanguageBridge

/-! Starting and stopping a child server, and asking it. Each of these may wait for a reply; the
stage then says how it goes on. -/

/-- The reply that ends a stop is that to `shutdown`, then that to `stop`. -/
inductive HaltStage where
  | shutdown
  | stop
deriving DecidableEq, Repr

inductive LaunchStage where
  | spawn (root : Option String)
  | handshake
  /-- The handshake failed, and the server is being stopped. -/
  | giveUp (stage : HaltStage)
deriving DecidableEq, Repr

namespace Link

def dropClient (link : Link) : Link :=
  { link with server := { link.server with client := none } }

/-! ### Stopping -/

/-- Errors while a client is stopped are of no interest. -/
def afterStop (link : Link) (reply : Reply) : Link × Attempt HaltStage Unit :=
  match reply with
  | .hold key => (link, .blocked key .stop)
  | .failure _ | .result _ => (link.dropClient, .done (.ok ()))

def stopClient (link : Link) : Link × Attempt HaltStage Unit :=
  match link.server.client with
  | none => (link, .done (.ok ()))
  | some client =>
    let (reply, asked) := (link.emit client .stop).take .stop
    asked.afterStop reply

def afterShutdown (link : Link) (reply : Reply) : Link × Attempt HaltStage Unit :=
  match reply with
  | .hold key => (link, .blocked key .shutdown)
  | .failure _ => link.stopClient
  | .result _ =>
    match link.server.client with
    | none => link.stopClient
    | some client => (link.emit client .exit).stopClient

def halt (link : Link) : Link × Attempt HaltStage Unit :=
  match link.server.client with
  | none => (link, .done (.ok ()))
  | some client =>
    let (reply, asked) := (link.emit client .shutdown).take .shutdown
    asked.afterShutdown reply

def resumeHalt (link : Link) (stage : HaltStage) (reply : Reply) :
    Link × Attempt HaltStage Unit :=
  match stage with
  | .shutdown => link.afterShutdown reply
  | .stop => link.afterStop reply

/-- A server that was stopped has nothing open. -/
def afterHalt (halted : Link × Attempt HaltStage Unit) : Link × Attempt HaltStage Unit :=
  match halted with
  | (link, .done (.ok ())) =>
    ({ link with server := { link.server with started := false, openDocuments := {} } },
      .done (.ok ()))
  | unfinished => unfinished

def stop (link : Link) : Link × Attempt HaltStage Unit :=
  afterHalt link.halt

def resumeStop (link : Link) (stage : HaltStage) (reply : Reply) :
    Link × Attempt HaltStage Unit :=
  afterHalt (link.resumeHalt stage reply)

/-! ### Starting -/

def markFailed (link : Link) : Link :=
  { link with server := { link.server with failed := true } }

def afterGiveUp (halted : Link × Attempt HaltStage Unit) : Link × Attempt LaunchStage Bool :=
  match halted with
  | (link, .done _) => (link.markFailed, .done (.ok false))
  | (link, .blocked key stage) => (link, .blocked key (.giveUp stage))

def giveUp (link : Link) (reason : String) : Link × Attempt LaunchStage Bool :=
  afterGiveUp (link.log .error (link.logLabel ++ "initialization failed: " ++ reason)).halt

/-- The server is up: it is told so, and it gets its settings if it has any. -/
def greet (link : Link) : Link × Attempt LaunchStage Bool :=
  match link.server.client with
  | none => (link, .done (.error (.clientGone "initialized")))
  | some client =>
    let ready := link.emit client .ready
    let configured :=
      if ready.server.settings.isFilled then
        ready.emit client (.configure ready.server.settings)
      else
        ready
    ({ configured with server := { configured.server with started := true } }, .done (.ok true))

def afterHandshake (link : Link) (reply : Reply) : Link × Attempt LaunchStage Bool :=
  match reply with
  | .hold key => (link, .blocked key .handshake)
  | .failure reason => link.giveUp reason
  | .result _ => link.greet

def rootUri? (root : Option String) : Except Fault (Option String) :=
  match root with
  | none => .ok none
  | some path => if path = "" then .ok none else (WorkspaceRoot.uri path).map some

def handshake (link : Link) (root : Option String) : Link × Attempt LaunchStage Bool :=
  match rootUri? root with
  | .error fault => (link, .done (.error fault))
  | .ok uri =>
    match link.server.client with
    | none => link.giveUp (Fault.clientGone "initialize_async").message
    | some client =>
      let options :=
        if link.server.settings.isFilled then some link.server.settings else none
      let message := .handshake uri (WorkspaceRoot.folderName (root.getD "")) options
      let (reply, asked) := (link.emit client message).take .handshake
      asked.afterHandshake reply

def afterSpawn (link : Link) (root : Option String) (reply : Reply) :
    Link × Attempt LaunchStage Bool :=
  match reply with
  | .hold key => (link, .blocked key (.spawn root))
  | .failure reason =>
    ((link.log .error (link.logLabel ++ "failed to start " ++ shownTexts link.server.command ++
      ": " ++ reason)).dropClient.markFailed, .done (.ok false))
  | .result _ => link.handshake root

/-- A new client, which takes the place of any other. -/
def newClient (link : Link) : Link :=
  let client := link.wire.clients
  let created : Link :=
    { server := { link.server with client := some client }
      wire := { link.wire with clients := client + 1 } }
  created.emit client (.create (bridgeName ++ "-" ++ link.server.language))

def start (link : Link) (root : Option String) : Link × Attempt LaunchStage Bool :=
  if link.server.started then (link, .done (.ok true))
  else
    let fresh := link.newClient
    let (reply, asked) := (fresh.emit link.wire.clients (.spawn link.server.command)).take .spawn
    asked.afterSpawn root reply

def resumeStart (link : Link) (stage : LaunchStage) (reply : Reply) :
    Link × Attempt LaunchStage Bool :=
  match stage with
  | .spawn root => link.afterSpawn root reply
  | .handshake => link.afterHandshake reply
  | .giveUp stage => afterGiveUp (link.resumeHalt stage reply)

/-! ### Requests -/

/-- Errors of the child server are passed on unchanged. -/
def afterRequest (reply : Reply) : Attempt Unit Answer :=
  match reply with
  | .hold key => .blocked key ()
  | .failure reason => .done (.error (.child reason))
  | .result answer => .done (.ok answer)

/-- Asks the server; one that is not up has nothing to say. -/
def request (link : Link) (method : Method) (params : Params) :
    Link × Attempt Unit Answer :=
  match link.client? with
  | none => (link, .done (.ok .null))
  | some client =>
    match method with
    | .other name => (link, .done (.error (.unsupportedMethod name)))
    | known =>
      let (reply, asked) := (link.emit client (.request known params)).take (.request known)
      (asked, afterRequest reply)

end Link

end LanguageBridge
