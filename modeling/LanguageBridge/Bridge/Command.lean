import LanguageBridge.Bridge.Queue

namespace LanguageBridge

/-! What the bridge can be told to do. Every command becomes a task; the queue is then worked off
until nothing can go on. -/

inductive BridgeCommand where
  | openHost (uri text : String) (languageId : Option String)
  | editHost (uri text : String) (changed : Option LineRange)
  | closeHost (uri : String)
  | dispatch (uri : String) (position : Position) (method : Method) (params : Params)
  | dispatchAll (uri : String) (method : Method) (params : Params)
  | resolve (item : Params)
  | search (query : Value)
  | ensure (language : String)
  | updateSettings (settings : Value)
  | shutdown
  | receive (language : String) (message : Inbound)
  | diagnostics (uri : String) (published : Value)
deriving Repr

namespace Run

def openHost (run : Run) (task : Nat) (uri text : String) (languageId : Option String) : Run :=
  let store := run.bridge.store.openHost uri text languageId
  syncHost task uri (store.languages uri) (run.setBridge { run.bridge with store := store })

/-- Only the languages whose documents have changed are brought to their child servers. -/
def editHost (run : Run) (task : Nat) (uri text : String) (changed : Option LineRange) : Run :=
  let store := run.bridge.store.update uri text changed
  let touched := (Store.changedLanguages run.bridge.store store uri).mergeSort
  syncHost task uri touched (run.setBridge { run.bridge with store := store })

def closeHost (run : Run) (task : Nat) (uri : String) : Run :=
  let (bridge, outcome) := run.bridge.closeHost uri
  (run.setBridge bridge).finish task (outcome.map fun _ => .null)

def dispatch (run : Run) (task : Nat) (uri : String) (position : Position) (method : Method)
    (params : Params) : Run :=
  let (router, routed) := run.bridge.router.route run.bridge.store uri position method params
  let entered := run.setBridge { run.bridge with router := router }
  match routed with
  | .error fault => entered.finish task (.error fault)
  | .ok none => entered.finish task (.ok .notApplicable)
  | .ok (some context) => entered.send task context .direct

def dispatchAll (run : Run) (task : Nat) (uri : String) (method : Method) (params : Params) :
    Run :=
  let (router, routed) := run.bridge.router.fanOut run.bridge.store uri method params
  let entered := run.setBridge { run.bridge with router := router }
  match routed with
  | .error fault => entered.finish task (.error fault)
  | .ok [] => entered.finish task (.ok .notApplicable)
  | .ok contexts => entered.fanOut task method contexts

def resolveItem (run : Run) (task : Nat) (item : Params) : Run :=
  let (router, routed) := run.bridge.router.routeResolve item
  let entered := run.setBridge { run.bridge with router := router }
  match routed with
  | .error fault => entered.finish task (.error fault)
  | .ok none => entered.finish task (.ok (.answer (.ofValue item.toValue)))
  | .ok (some context) => entered.send task context (.resolving item)

def ensureOnly (run : Run) (task : Nat) (language : String) : Run :=
  match run.ensure language with
  | (ensured, .ready _) => ensured.finish task (.ok (.language (some language)))
  | (ensured, .absent) => ensured.finish task (.ok (.language none))
  | (ensured, .raised fault) => ensured.finish task (.error fault)
  | (ensured, .starting _) => ensured.await task language (.ensuring language)

def begin (run : Run) (task : Nat) (command : BridgeCommand) : Run :=
  match command with
  | .openHost uri text languageId => run.openHost task uri text languageId
  | .editHost uri text changed => run.editHost task uri text changed
  | .closeHost uri => run.closeHost task uri
  | .dispatch uri position method params => run.dispatch task uri position method params
  | .dispatchAll uri method params => run.dispatchAll task uri method params
  | .resolve item => run.resolveItem task item
  | .search query => run.search task query
  | .ensure language => run.ensureOnly task language
  | .updateSettings settings =>
    (run.setBridge (run.bridge.updateSettings settings)).finish task (.ok .null)
  | .shutdown =>
    let count := run.bridge.current.size
    stopServers task count count run
  | .receive language message => run.receive task language message
  | .diagnostics uri published => run.receiveDiagnostics task uri published

def enter (run : Run) (command : BridgeCommand) : Run :=
  { run with nextTask := run.nextTask + 1 }.begin run.nextTask command

/-- Starts a command; gives the number of its task. -/
def submit (run : Run) (command : BridgeCommand) : Nat × Run :=
  (run.nextTask, (run.enter command).drain)

def prepare (run : Run) (peer : Peer) (call : Call) (replies : List Reply) : Run :=
  run.setBridge { run.bridge with wire := run.bridge.wire.prepare peer call replies }

def free? (run : Run) (key : String) (reply : Reply) : Option Run :=
  (run.held.get? key).map fun task =>
    { run with held := run.held.erase key }.enqueue [.resume task (.reply reply)]

/-- Gives a held reply to the task that waits for it; says whether one does. -/
def release (run : Run) (key : String) (reply : Reply) : Bool × Run :=
  match run.free? key reply with
  | none => (false, run)
  | some freed => (true, freed.drain)

/-- Takes a task off whatever it waits for, and queues its end. -/
def interrupt (run : Run) (task : Nat) : Run :=
  { run with
    held := run.held.filterValues (· ≠ task)
    startUps := run.startUps.mapValues fun startUp =>
      { startUp with waiters := startUp.waiters.filter (· ≠ task) }
  }.enqueue [.resume task .cancelled]

/-- Cancels a split task by cancelling the members that wait; those still in the queue end when it is
their turn. -/
def interruptGroup (run : Run) (task : Nat) (group : Group) : Run :=
  (group.members.filter run.tasks.contains).foldl interrupt
    { run with groups := run.groups.put task { group with cancelled := true } }

/-- Queues the end of a task, or of the members it has split into, if it is blocked. -/
def withdraw? (run : Run) (task : Nat) : Option Run :=
  (run.tasks.get? task).map fun _ =>
    match run.groups.get? task with
    | some group => run.interruptGroup task group
    | none => run.interrupt task

/-- Cancels a task that is blocked; says whether it is. A start that it waits for goes on. -/
def cancel (run : Run) (task : Nat) : Bool × Run :=
  match run.withdraw? task with
  | none => (false, run)
  | some withdrawn => (true, withdrawn.drain)

end Run

end LanguageBridge
