import LanguageBridge.Bridge.Gather
import LanguageBridge.Bridge.Shutdown
import LanguageBridge.Bridge.Sync

namespace LanguageBridge

/-! The order in which tasks go on. -/

namespace Run

def serve (run : Run) (task server : Nat) (attempted : Link × ChildAttempt) : Run :=
  let linked := run.setBridge (run.bridge.setLink server attempted.1)
  match attempted.2 with
  | .blocked key stage => linked.hold task key (.serving server stage)
  | .done outcome => linked.finish task outcome

def receiveDiagnostics (run : Run) (task : Nat) (uri : String) (published : Value) : Run :=
  match run.bridge.receiveDiagnostics uri published with
  | .error fault => run.finish task (.error fault)
  | .ok received => (run.setBridge received).finish task (.ok .null)

def receive (run : Run) (task : Nat) (language : String) (message : Inbound) : Run :=
  match run.bridge.speakers.get? language with
  | none => run.finish task (.error (.unknownClient language))
  | some server =>
    match message with
    | .diagnostics uri published =>
      match published.filledElements with
      | .error fault => run.finish task (.error fault)
      | .ok items => run.receiveDiagnostics task uri (.list items)
    | other => run.serve task server ((run.bridge.link server).receive other)

/-- A cancelled task ends at once; a request among them is no longer pending. -/
def abandon (run : Run) (task : Nat) (activity : Activity) : Run :=
  match activity with
  | .requesting context _ recipient => run.leave task context recipient (.error .cancelled)
  | .answering context recipient => run.leave task context recipient (.error .cancelled)
  | .querying parent index => run.deliver task (.member parent index) (.error .cancelled)
  | _ => run.finish task (.error .cancelled)

def resume (run : Run) (task : Nat) (activity : Activity) (signal : Signal) : Run :=
  match signal, activity with
  | .cancelled, blocked => run.abandon task blocked
  | .started outcome, .syncing host language rest =>
    run.resumeSync task host language rest outcome
  | .started (.error fault), .ensuring _ => run.finish task (.error fault)
  | .started (.ok up), .ensuring language =>
    run.finish task (.ok (.language (if up then some language else none)))
  | .started outcome, .requesting context server recipient =>
    run.resumeSend task context server recipient outcome
  | .reply reply, .answering context recipient =>
    run.conclude task context recipient (Link.afterRequest reply)
  | .reply reply, .querying parent index =>
    run.concludeSearch task parent index (Link.afterRequest reply)
  | .reply reply, .launching language server stage =>
    run.afterLaunch task language server ((run.bridge.link server).resumeStart stage reply)
  | .reply reply, .stopping count remaining server stage =>
    run.resumeStop task count remaining server stage reply
  | .reply reply, .serving server served =>
    run.serve task server (served.resume (run.bridge.link server) reply)
  | .gathered, .gathering => run.gathered task
  | _, _ => run

/-- Begins a member of a split task. If the task has been cancelled before, the member ends at once; a
request that it was to send is then left in the table. -/
def join (run : Run) (task parent index : Nat) (begun : Run) : Run :=
  if (run.groups.get? parent).any Group.cancelled then
    run.deliver task (.member parent index) (.error .cancelled)
  else begun

def perform (run : Run) (job : Job) : Run :=
  match job with
  | .launch task language server => run.launch task language server
  | .send task context parent index =>
    run.join task parent index (run.send task context (.member parent index))
  | .search task server query parent index =>
    run.join task parent index (run.askSearch task server query parent index)
  | .resume task signal =>
    match run.tasks.get? task with
    | some activity => run.resume task activity signal
    | none => run
  | .forget language => { run with startUps := run.startUps.erase language }
  | .relay task outcome => run.enqueue [.resume task (.started outcome)]
  | .report parent index outcome => run.report parent index outcome

def step? (run : Run) : Option Run :=
  match run.ready with
  | [] => none
  | job :: rest => some ({ run with ready := rest }.perform job)

/-- No less than the number of jobs until nothing can go on. -/
def work (run : Run) : Nat :=
  run.tasks.values.foldl (fun total activity => total + activity.work) (8 + 8 * run.ready.length)

def drainFor : Nat → Run → Run
  | 0, run => run
  | fuel + 1, run =>
    match run.step? with
    | none => run
    | some next => drainFor fuel next

def drain (run : Run) : Run :=
  drainFor run.work run

end Run

end LanguageBridge
