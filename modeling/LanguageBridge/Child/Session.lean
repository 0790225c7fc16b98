import LanguageBridge.Child.Inbound

namespace LanguageBridge

/-! One child server by itself: a sequence of commands, some of which wait for held replies and
finish later, in any order. -/

inductive Response where
  | null
  | truth (truth : Bool)
  | answer (answer : Answer)
  /-- No language, or no running server, has anything to do with the request. -/
  | notApplicable
  | language (name : Option String)
deriving Repr, Inhabited

abbrev Outcome := Except Fault Response

inductive ChildTask where
  | start (stage : LaunchStage)
  | stop (stage : HaltStage)
  | request
  | configuration (params : Value)
  | createProgress
deriving Repr

abbrev ChildAttempt := Attempt ChildTask Response

namespace Attempt

/-- Says in the words of the whole what a part has come to. -/
def widen {σ τ α β : Type} (stage : σ → τ) (result : α → β) : Attempt σ α → Attempt τ β
  | done outcome => done (outcome.map result)
  | blocked key reached => blocked key (stage reached)

end Attempt

def Link.startTask (started : Link × Attempt LaunchStage Bool) : Link × ChildAttempt :=
  (started.1, started.2.widen .start .truth)

def Link.stopTask (stopped : Link × Attempt HaltStage Unit) : Link × ChildAttempt :=
  (stopped.1, stopped.2.widen .stop fun _ => .null)

def ChildTask.resume (task : ChildTask) (link : Link) (reply : Reply) : Link × ChildAttempt :=
  match task with
  | .start stage => Link.startTask (link.resumeStart stage reply)
  | .stop stage => Link.stopTask (link.resumeStop stage reply)
  | .request => (link, (Link.afterRequest reply).widen (fun _ => .request) .answer)
  | .configuration params =>
    (link, (link.afterConfiguration params reply).widen (fun _ => .configuration params) .answer)
  | .createProgress =>
    (link, (Link.afterCreateProgress reply).widen (fun _ => .createProgress) fun _ => .null)

/-- Handles what the child server sends, diagnostics apart. -/
def Link.receive (link : Link) (message : Inbound) : Link × ChildAttempt :=
  match message with
  | .diagnostics _ _ => (link, .done (.ok .null))
  | .configuration params =>
    let (asked, attempt) := link.configuration params
    (asked, attempt.widen (fun _ => .configuration params) .answer)
  | .logMessage severity text => (link.relog severity text, .done (.ok .null))
  | .createProgress token =>
    let (asked, attempt) := link.createProgress token
    (asked, attempt.widen (fun _ => .createProgress) fun _ => .null)
  | .progress token value => (link.progress token value, .done (.ok .null))
  | .unreadable topic fault =>
    (link, .done ((link.unreadable topic fault).map fun _ => .null))

inductive ChildCommand where
  | start (root : Option String)
  | stop
  | updateSettings (settings : Value)
  | syncDocument (aliasUri text : String) (version : Int)
  | closeDocument (aliasUri : String)
  | request (method : Method) (params : Params)
  | receive (language : String) (message : Inbound)
  | configuration (params : Value)
deriving Repr

structure ChildSession where
  link : Link
  publishes : Bool := true
  waiting : Table Nat ChildTask := {}
  held : Table String Nat := {}
  finished : Table Nat Outcome := {}
deriving Inhabited

namespace ChildSession

def settle (session : ChildSession) (task : Nat) (attempted : Link × ChildAttempt) :
    ChildSession :=
  match attempted with
  | (link, .done outcome) =>
    { session with
      link := link
      waiting := session.waiting.erase task
      finished := session.finished.put task outcome }
  | (link, .blocked key stage) =>
    { session with
      link := link
      waiting := session.waiting.put task stage
      held := session.held.putUnder key task }

def receive (session : ChildSession) (message : Inbound) : Link × ChildAttempt :=
  match message with
  | .diagnostics uri published =>
    let link := session.link
    if session.publishes then
      match published.filledElements with
      | .error fault => (link, .done (.error fault))
      | .ok items =>
        ({ link with wire := link.wire.emit (.published uri items) }, .done (.ok .null))
    else
      (link, .done (.ok .null))
  | .unreadable .diagnostics fault =>
    (session.link, .done (if session.publishes then .error fault else .ok .null))
  | other => session.link.receive other

def speaks (session : ChildSession) (language : String) : Bool :=
  session.link.wire.clients ≠ 0 && session.link.server.language = language

def perform (session : ChildSession) (command : ChildCommand) : Link × ChildAttempt :=
  let link := session.link
  match command with
  | .start root => Link.startTask (link.start root)
  | .stop => Link.stopTask link.stop
  | .updateSettings settings => (link.updateSettings settings, .done (.ok .null))
  | .syncDocument aliasUri text version =>
    match link.versionFault? aliasUri version with
    | some fault => (link, .done (.error fault))
    | none => (link.syncDocument aliasUri text version, .done (.ok .null))
  | .closeDocument aliasUri => (link.closeDocument aliasUri, .done (.ok .null))
  | .request method params =>
    let (asked, attempt) := link.request method params
    (asked, attempt.widen (fun _ => .request) .answer)
  | .receive language message =>
    if session.speaks language then session.receive message
    else (link, .done (.error (.unknownClient language)))
  | .configuration params => link.receive (.configuration params)

def submit (session : ChildSession) (task : Nat) (command : ChildCommand) : ChildSession :=
  session.settle task (session.perform command)

def release (session : ChildSession) (key : String) (reply : Reply) : Bool × ChildSession :=
  match session.held.get? key with
  | none => (false, session)
  | some task =>
    let freed := { session with held := session.held.erase key }
    match session.waiting.get? task with
    | none => (true, freed)
    | some stage => (true, freed.settle task (stage.resume freed.link reply))

def cancel (session : ChildSession) (task : Nat) : Bool × ChildSession :=
  if session.waiting.contains task then
    (true,
      { session with
        waiting := session.waiting.erase task
        held := session.held.filterValues (· ≠ task)
        finished := session.finished.put task (.error .cancelled) })
  else
    (false, session)

end ChildSession

end LanguageBridge
