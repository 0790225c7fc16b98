import LanguageBridge.Bridge.Request

namespace LanguageBridge

/-! Requests to several child servers at once. One that fails is logged and left out. -/

namespace Run

/-- Splits a task: the members are queued in order, and the task waits for them all. -/
def split (run : Run) (task : Nat) (purpose : Purpose) (count : Nat) (job : Nat → Nat → Job) :
    Run :=
  let members := (List.range count).map (run.nextTask + ·)
  let group : Group :=
    { purpose := purpose, members := members, outcomes := List.replicate count none }
  { run.block task .gathering with
    groups := run.groups.put task group
    nextTask := run.nextTask + count
  }.enqueue ((List.range count).map fun index => job (run.nextTask + index) index)

def fanOut (run : Run) (task : Nat) (method : Method) (contexts : List Context) : Run :=
  run.split task (.fanOut method contexts) contexts.length fun member index =>
    .send member (contexts.getD index default) task index

/-- Asks every child server that is up. Only a text can be looked for. -/
def search (run : Run) (task : Nat) (query : Value) : Run :=
  let up := run.bridge.current.entries.filter fun entry =>
    (run.bridge.link entry.2).server.started
  match query with
  | .str wanted =>
    if up = [] then run.finish task (.ok (.answer (.many [])))
    else
      run.split task (.symbols (up.map Prod.fst)) up.length fun member index =>
        .search member ((up.getD index ("", 0)).2) wanted task index
  | other => run.finish task (.error (.notAText other))

def concludeSearch (run : Run) (task parent index : Nat) (attempt : Attempt Unit Answer) : Run :=
  match attempt with
  | .blocked key () => run.hold task key (.querying parent index)
  | .done outcome => run.deliver task (.member parent index) (outcome.map .answer)

def askSearch (run : Run) (task server : Nat) (query : String) (parent index : Nat) : Run :=
  let params := Params.other (.record "WorkspaceSymbolParams" [("query", .str query)])
  let (link, attempt) := (run.bridge.link server).request .workspaceSymbol params
  (run.setBridge (run.bridge.setLink server link)).concludeSearch task parent index attempt

/-- Notes the outcome of a member; after the last one the split task goes on. -/
def report (run : Run) (parent index : Nat) (outcome : Outcome) : Run :=
  match run.groups.get? parent with
  | none => run
  | some group =>
    let outcomes := group.outcomes.set index (some outcome)
    let noted := { run with
      groups := run.groups.put parent { group with outcomes := outcomes } }
    if outcomes.all Option.isSome then noted.enqueue [.resume parent .gathered] else noted

def failures (outcomes : List Outcome) : List Fault :=
  outcomes.filterMap fun
    | .error fault => some fault
    | .ok _ => none

def answers (outcomes : List Outcome) : List Answer :=
  outcomes.filterMap fun
    | .ok (.answer answer) => some answer
    | _ => none

def logFailure (method language : String) (run : Run) (outcome : Outcome) : Run :=
  match outcome with
  | .ok _ => run
  | .error fault =>
    run.log .warning ("BRIDGE: " ++ method ++ " failed for '" ++ language ++ "': " ++
      fault.message)

def logFailures (method : String) (run : Run) (outcomes : List (String × Outcome)) : Run :=
  outcomes.foldl (fun run entry => logFailure method entry.1 run entry.2) run

def merge (method : Method) (answers : List Answer) : Except Fault (List Item) :=
  match method with
  | .documentSymbol => mergeSymbols answers
  | .inlayHint => mergeHints answers
  | _ => allElements answers

/-- What a request to all languages of a host comes to: failures count only if nobody answers. -/
def fanOutOutcome (method : Method) (outcomes : List Outcome) : Outcome :=
  match answers outcomes, failures outcomes with
  | [], fault :: _ => .error fault
  | [], [] => .ok .notApplicable
  | given, _ => (merge method given).map fun items => .answer (.many items)

/-- Goes through the outcomes of a search in order: failures are logged, and the symbols in the
answers are collected. An answer that is looked into in vain ends it there. -/
def collectSymbols (store : Store) : List (String × Outcome) → Run → Run × Except Fault (List Item)
  | [], run => (run, .ok [])
  | (language, outcome) :: rest, run =>
    match outcome with
    | .ok (.answer answer) =>
      match store.bringSymbolsBack answer with
      | .error fault => (run, .error fault)
      | .ok found =>
        let (collected, others) := collectSymbols store rest run
        (collected, others.map (found ++ ·))
    | other =>
      collectSymbols store rest (logFailure Method.workspaceSymbol.name language run other)

/-- What a search comes to: it fails only if every child server fails. -/
def searchOutcome (outcomes : List Outcome) (found : Except Fault (List Item)) : Outcome :=
  match answers outcomes, failures outcomes with
  | [], fault :: _ => .error fault
  | _, _ => found.map fun items => .answer (.many items)

def gathered (run : Run) (task : Nat) : Run :=
  match run.groups.get? task with
  | none => run
  | some group =>
    let closed := { run with groups := run.groups.erase task }
    if group.cancelled then closed.finish task (.error .cancelled)
    else
      let outcomes := group.outcomes.filterMap id
      match group.purpose with
      | .fanOut method contexts =>
        (logFailures method.name closed
          ((contexts.map Context.language).zip outcomes)).finish task
            (fanOutOutcome method outcomes)
      | .symbols languages =>
        let (logged, found) :=
          collectSymbols run.bridge.store (languages.zip outcomes) closed
        logged.finish task (searchOutcome outcomes found)

end Run

end LanguageBridge
