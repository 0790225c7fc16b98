import LanguageBridge.Bridge.StartUp

namespace LanguageBridge

/-! Keeping child servers informed about a host. -/

namespace Run

/-- Brings the documents of a host to the child servers of some languages, and then publishes what
is known about the host. -/
def syncHost (task : Nat) (host : String) : List String → Run → Run
  | [], run => (run.setBridge (run.bridge.publish host)).finish task (.ok .null)
  | language :: rest, run =>
    match run.ensure language with
    | (ensured, .absent) => syncHost task host rest ensured
    | (ensured, .raised fault) => ensured.finish task (.error fault)
    | (ensured, .starting _) => ensured.await task language (.syncing host language rest)
    | (ensured, .ready _) =>
      match ensured.bridge.syncDocument host language with
      | .ok bridge => syncHost task host rest (ensured.setBridge bridge)
      | .error fault => ensured.finish task (.error fault)

def resumeSync (run : Run) (task : Nat) (host language : String) (rest : List String)
    (outcome : Except Fault Bool) : Run :=
  match outcome with
  | .error fault => run.finish task (.error fault)
  | .ok false => syncHost task host rest run
  | .ok true =>
    match run.bridge.syncDocument host language with
    | .ok bridge => syncHost task host rest (run.setBridge bridge)
    | .error fault => run.finish task (.error fault)

end Run

end LanguageBridge
