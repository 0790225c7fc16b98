import LanguageBridge.Bridge.StartUp

namespace LanguageBridge

/-! One request to one child server. However it ends, it leaves the table of pending requests. -/

namespace Run

/-- A completion item that nobody could resolve stands as it is. -/
def resolved (item : Params) : Outcome → Outcome
  | .ok .notApplicable => .ok (.answer (.ofValue item.toValue))
  | .ok (.answer .null) => .ok (.answer (.ofValue item.toValue))
  | outcome => outcome

def deliver (run : Run) (task : Nat) (recipient : Recipient) (outcome : Outcome) : Run :=
  match recipient with
  | .direct => run.finish task outcome
  | .resolving item => run.finish task (resolved item outcome)
  | .member parent index =>
    { run with tasks := run.tasks.erase task }.enqueue [.report parent index outcome]

/-- Ends a request; on every way out it leaves the table of pending requests. -/
def leave (run : Run) (task : Nat) (context : Context) (recipient : Recipient) (outcome : Outcome) :
    Run :=
  (run.setBridge { run.bridge with router := run.bridge.router.discard context.id }).deliver
    task recipient outcome

/-- Goes on with what has become of a request: an answer is brought back to the host. -/
def conclude (run : Run) (task : Nat) (context : Context) (recipient : Recipient)
    (attempt : Attempt Unit Answer) : Run :=
  match attempt with
  | .blocked key () => run.hold task key (.answering context recipient)
  | .done (.error fault) => run.leave task context recipient (.error fault)
  | .done (.ok answer) =>
    match run.bridge.router.complete context.id with
    | .error fault => run.leave task context recipient (.error fault)
    | .ok (entered, router) =>
      (run.setBridge { run.bridge with router := router }).deliver task recipient
        ((run.bridge.store.bringBack entered answer).1.map .answer)

def ask (run : Run) (task : Nat) (context : Context) (server : Nat) (recipient : Recipient) : Run :=
  let (link, attempt) := (run.bridge.link server).request context.method context.params
  (run.setBridge (run.bridge.setLink server link)).conclude task context recipient attempt

def send (run : Run) (task : Nat) (context : Context) (recipient : Recipient) : Run :=
  match run.ensure context.language with
  | (ensured, .ready server) => ensured.ask task context server recipient
  | (ensured, .absent) => ensured.leave task context recipient (.ok .notApplicable)
  | (ensured, .raised fault) => ensured.leave task context recipient (.error fault)
  | (ensured, .starting server) =>
    ensured.await task context.language (.requesting context server recipient)

def resumeSend (run : Run) (task : Nat) (context : Context) (server : Nat) (recipient : Recipient)
    (outcome : Except Fault Bool) : Run :=
  match outcome with
  | .error fault => run.leave task context recipient (.error fault)
  | .ok false => run.leave task context recipient (.ok .notApplicable)
  | .ok true => run.ask task context server recipient

end Run

end LanguageBridge
