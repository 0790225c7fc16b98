import LanguageBridge.Bridge.Task

namespace LanguageBridge

/-! Starting the child server of a language on first use. All who need it while it starts share one
start, and are told in the order in which they came. -/

namespace Run

inductive Ensured where
  | ready (server : Nat)
  /-- There is no command for it, or it has failed. -/
  | absent
  | raised (fault : Fault)
  | starting (server : Nat)

def queueLaunch (run : Run) (language : String) (server : Nat) : Run :=
  { run with
    nextTask := run.nextTask + 1
    startUps := run.startUps.put language { server := server }
  }.enqueue [.launch run.nextTask language server]

/-- Sees to it that the child server of a language is started. All who ask while it is starting
share one start. -/
def ensure (run : Run) (language : String) : Run × Ensured :=
  match run.bridge.findServer language with
  | (_, none) => (run, .absent)
  | (bridge, some server) =>
    let found := run.setBridge bridge
    let state := (bridge.link server).server
    if state.started then (found, .ready server)
    else if state.failed then (found, .absent)
    else
      match found.startUps.get? language with
      | none => (found.queueLaunch language server, .starting server)
      | some startUp =>
        match startUp.settled with
        | none => (found, .starting server)
        | some (.ok true) => (found, .ready server)
        | some (.ok false) => (found, .absent)
        | some (.error fault) => (found, .raised fault)

def await (run : Run) (task : Nat) (language : String) (activity : Activity) : Run :=
  { run.block task activity with
    startUps := run.startUps.adjust language fun startUp =>
      { startUp with waiters := startUp.waiters ++ [task] } }

/-- Ends a start; those who wait for it learn of it in the order in which they came. -/
def settle (run : Run) (task : Nat) (language : String) (outcome : Except Fault Bool) : Run :=
  let waiters := ((run.startUps.get? language).map StartUp.waiters).getD []
  { run with
    tasks := run.tasks.erase task
    startUps := run.startUps.adjust language fun startUp =>
      { startUp with settled := some outcome }
  }.enqueue (.forget language :: waiters.map fun waiter => .relay waiter outcome)

/-- A server that has started gets the documents that were opened before. -/
def afterLaunch (run : Run) (task : Nat) (language : String) (server : Nat)
    (launched : Link × Attempt LaunchStage Bool) : Run :=
  let linked := run.setBridge (run.bridge.setLink server launched.1)
  match launched.2 with
  | .blocked key stage => linked.hold task key (.launching language server stage)
  | .done (.ok true) =>
    match Bridge.syncAll server (linked.bridge.documentsIn launched.1.server.language)
      linked.bridge with
    | (bridge, .ok ()) => (linked.setBridge bridge).settle task language (.ok true)
    | (bridge, .error fault) => (linked.setBridge bridge).settle task language (.error fault)
  | .done outcome => linked.settle task language outcome

def launch (run : Run) (task : Nat) (language : String) (server : Nat) : Run :=
  let link := run.bridge.link server
  let speaking := run.setBridge { run.bridge with
    speakers := run.bridge.speakers.put link.server.language server }
  speaking.afterLaunch task language server (link.start run.bridge.root)

end Run

end LanguageBridge
