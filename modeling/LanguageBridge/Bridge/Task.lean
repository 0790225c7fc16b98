import LanguageBridge.Bridge.Basic

namespace LanguageBridge

/-! Work of the bridge that takes several steps. A task is blocked until a child server has
started, a reply has come, or the tasks it has split into are done; what is ready to go on waits
in a queue, first in, first out. -/

/-- A child server that is starting, and the tasks that wait for it. -/
structure StartUp where
  server : Nat
  waiters : List Nat := []
  settled : Option (Except Fault Bool) := none
deriving Inhabited

inductive Recipient where
  | direct
  /-- A completion item, which stands if there is no better one. -/
  | resolving (item : Params)
  | member (parent index : Nat)
deriving Repr

inductive Activity where
  /-- Bringing the documents of a host to their child servers; the first language starts. -/
  | syncing (host language : String) (rest : List String)
  | ensuring (language : String)
  | requesting (context : Context) (server : Nat) (recipient : Recipient)
  | answering (context : Context) (recipient : Recipient)
  | launching (language : String) (server : Nat) (stage : LaunchStage)
  /-- Stopping all child servers; so many there were, and so many come after this one. -/
  | stopping (count remaining server : Nat) (stage : HaltStage)
  | gathering
  | querying (parent index : Nat)
  | serving (server : Nat) (task : ChildTask)
deriving Repr

/-- A bound on the jobs that a blocked task can still bring about: it may go through further
languages, each with a start to wait for. -/
def Activity.work : Activity → Nat
  | .syncing _ _ rest => 8 + 4 * rest.length
  | _ => 8

/-- What the members of a split task are for. -/
inductive Purpose where
  | fanOut (method : Method) (contexts : List Context)
  | symbols (languages : List String)
deriving Repr

structure Group where
  purpose : Purpose
  members : List Nat
  outcomes : List (Option Outcome)
  cancelled : Bool := false

inductive Signal where
  | started (outcome : Except Fault Bool)
  | reply (reply : Reply)
  | gathered
  | cancelled

inductive Job where
  | launch (task : Nat) (language : String) (server : Nat)
  | send (task : Nat) (context : Context) (parent index : Nat)
  | search (task server : Nat) (query : String) (parent index : Nat)
  | resume (task : Nat) (signal : Signal)
  /-- A start that has ended is no longer under way. -/
  | forget (language : String)
  | relay (task : Nat) (outcome : Except Fault Bool)
  | report (parent index : Nat) (outcome : Outcome)

structure Run where
  bridge : Bridge
  startUps : Table String StartUp := {}
  tasks : Table Nat Activity := {}
  /-- The tasks that wait for held replies, by key. -/
  held : Table String Nat := {}
  groups : Table Nat Group := {}
  ready : List Job := []
  nextTask : Nat := 0
  finished : Table Nat Outcome := {}
deriving Inhabited

namespace Run

def enqueue (run : Run) (jobs : List Job) : Run :=
  { run with ready := run.ready ++ jobs }

def block (run : Run) (task : Nat) (activity : Activity) : Run :=
  { run with tasks := run.tasks.put task activity }

def hold (run : Run) (task : Nat) (key : Option String) (activity : Activity) : Run :=
  { run.block task activity with held := run.held.putUnder key task }

def finish (run : Run) (task : Nat) (outcome : Outcome) : Run :=
  { run with
    tasks := run.tasks.erase task
    finished := run.finished.put task outcome }

def setBridge (run : Run) (bridge : Bridge) : Run :=
  { run with bridge := bridge }

def log (run : Run) (severity : Severity) (text : String) : Run :=
  run.setBridge { run.bridge with wire := run.bridge.wire.log severity text }

def idle (run : Run) : Bool :=
  run.ready.isEmpty

end Run

end LanguageBridge
