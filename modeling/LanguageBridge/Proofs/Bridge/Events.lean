import LanguageBridge.Bridge.Command
import LanguageBridge.Proofs.Store.Run

namespace LanguageBridge

/-! What can happen to a bridge, in any order. Commands, replies and cancellations may come between
any two jobs of the queue. -/

inductive BridgeEvent where
  /-- The first step of a command. -/
  | command (command : BridgeCommand)
  /-- The first job in the queue. -/
  | step
  /-- A reply that was held back. -/
  | reply (key : String) (reply : Reply)
  /-- Replies are laid in. -/
  | prepare (peer : Peer) (call : Call) (replies : List Reply)
  | cancel (task : Nat)

/-- Requests other than searches and completion items are about a document. -/
def BridgeEvent.AboutDocuments : BridgeEvent → Prop
  | .command (.resolve _) | .command (.search _) => False
  | _ => True

namespace Run

def fresh (config : Config) (padding : Padding) (names : LanguageNames)
    (rules : Option (List Rule)) (root : Option String) (publishes : Bool) (editor : Editor) : Run :=
  { bridge :=
      { config := config
        store := .fresh padding names rules
        root := root
        publishes := publishes
        editor := editor } }

def act (run : Run) : BridgeEvent → Run
  | .command command => run.enter command
  | .step => run.step?.getD run
  | .reply key reply => (run.free? key reply).getD run
  | .prepare peer call replies => run.prepare peer call replies
  | .cancel task => (run.withdraw? task).getD run

/-- Hosts are opened, edited and closed, and requests are made about them. No host and no language
is without a name, a host is opened only while it is not open, and those who bring documents to
child servers are not cancelled. -/
def Admits (run : Run) : BridgeEvent → Prop
  | .command (.openHost uri text languageId) =>
    uri ≠ "" ∧ run.bridge.store.hosts.get? uri = none ∧
      ∀ language ∈ (run.bridge.store.openHost uri text languageId).languages uri, language ≠ ""
  | .command (.editHost uri text changed) =>
    uri ≠ "" ∧
      ∀ language ∈ (run.bridge.store.update uri text changed).languages uri, language ≠ ""
  | .command (.closeHost _) | .command (.dispatch _ _ _ _) | .command (.dispatchAll _ _ _) => True
  | .command _ => False
  | .cancel task => ∀ host language rest, run.tasks.get? task ≠ some (.syncing host language rest)
  | _ => True

/-- Anything but a shutdown, with the same about names, opened hosts and cancellations. -/
def Permits (run : Run) : BridgeEvent → Prop
  | .command (.openHost uri text languageId) =>
    uri ≠ "" ∧ run.bridge.store.hosts.get? uri = none ∧
      ∀ language ∈ (run.bridge.store.openHost uri text languageId).languages uri, language ≠ ""
  | .command (.editHost uri text changed) =>
    uri ≠ "" ∧
      ∀ language ∈ (run.bridge.store.update uri text changed).languages uri, language ≠ ""
  | .command .shutdown => False
  | .cancel task => ∀ host language rest, run.tasks.get? task ≠ some (.syncing host language rest)
  | _ => True

variable {run : Run}

theorem Admits.permits {event : BridgeEvent} (admitted : run.Admits event) :
    run.Permits event ∧ event.AboutDocuments := by
  cases event with
  | command command => cases command <;> first | exact ⟨admitted, trivial⟩ | exact admitted.elim
  | _ => exact ⟨admitted, trivial⟩

/-! The queue is worked off job by job, so that whatever is done to a run as a whole is a run of
events. -/

section Whole

variable {start : Run} {events : List BridgeEvent}

variable {allowed : Run → BridgeEvent → Prop} (steps : ∀ run, allowed run .step)
include steps

theorem reached_drainFor (reached : Reached act allowed start events run) (fuel : Nat) :
    ∃ later, Reached act allowed start later (drainFor fuel run) := by
  induction fuel generalizing run events with
  | zero => exact ⟨events, reached⟩
  | succ fuel ih =>
    unfold drainFor
    split
    · exact ⟨events, reached⟩
    · rename_i next stepped
      have more : Reached act allowed start (.step :: events) (run.step?.getD run) :=
        .step reached .step (steps run)
      rw [stepped] at more
      exact ih more

theorem reached_submit (reached : Reached act allowed start events run) (command : BridgeCommand)
    (admitted : allowed run (.command command)) :
    ∃ later, Reached act allowed start later (run.submit command).2 :=
  reached_drainFor steps (.step reached (.command command) admitted) _

theorem reached_release (reached : Reached act allowed start events run) (key : String)
    (reply : Reply) (admitted : allowed run (.reply key reply)) :
    ∃ later, Reached act allowed start later (run.release key reply).2 := by
  have more : Reached act allowed start (.reply key reply :: events)
      ((run.free? key reply).getD run) := .step reached (.reply key reply) admitted
  unfold Run.release
  split
  · exact ⟨events, reached⟩
  · rename_i freed isFreed
    rw [isFreed] at more
    exact reached_drainFor steps more _

theorem reached_cancel (reached : Reached act allowed start events run) {task : Nat}
    (admitted : allowed run (.cancel task)) :
    ∃ later, Reached act allowed start later (run.cancel task).2 := by
  have more : Reached act allowed start (.cancel task :: events)
      ((run.withdraw? task).getD run) := .step reached (.cancel task) admitted
  unfold Run.cancel
  split
  · exact ⟨events, reached⟩
  · rename_i withdrawn isWithdrawn
    rw [isWithdrawn] at more
    exact reached_drainFor steps more _

end Whole

end Run

end LanguageBridge
