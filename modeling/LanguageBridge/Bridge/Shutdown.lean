import LanguageBridge.Bridge.Task

namespace LanguageBridge

/-! Stopping all child servers, one after the other. -/

namespace Run

/-- Stops the child servers from the one that `remaining` more follow. They must be as many as at
the start. -/
def stopServers (task count : Nat) : Nat → Run → Run
  | remaining, run =>
    if run.bridge.current.size ≠ count then run.finish task (.error .serversChanged)
    else
      match remaining with
      | 0 =>
        (run.setBridge { run.bridge with current := {} }).finish task (.ok .null)
      | later + 1 =>
        let server := run.bridge.current.values.getD (count - remaining) 0
        let (link, attempt) := (run.bridge.link server).stop
        let linked := run.setBridge (run.bridge.setLink server link)
        match attempt with
        | .blocked key stage => linked.hold task key (.stopping count later server stage)
        | .done _ => stopServers task count later linked

def resumeStop (run : Run) (task count remaining server : Nat) (stage : HaltStage)
    (reply : Reply) : Run :=
  let (link, attempt) := (run.bridge.link server).resumeStop stage reply
  let linked := run.setBridge (run.bridge.setLink server link)
  match attempt with
  | .blocked key stage => linked.hold task key (.stopping count remaining server stage)
  | .done _ => stopServers task count remaining linked

end Run

end LanguageBridge
