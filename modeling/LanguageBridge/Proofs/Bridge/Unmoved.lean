import LanguageBridge.Proofs.Addressing
import LanguageBridge.Proofs.Bridge.Turns
import LanguageBridge.Proofs.Child.Routine

namespace LanguageBridge

/-! What leaves requests and starts alone. Whatever a task does on its way is of this kind. -/

namespace Bridge

def standings (bridge : Bridge) : List Standing :=
  bridge.servers.map ChildServer.standing

theorem standing_of_standings {before after : Bridge} (same : after.standings = before.standings)
    (server : Nat) : (after.link server).server.standing = (before.link server).server.standing := by
  have there := congrArg (·[server]?) same
  simp only [Bridge.standings, List.getElem?_map] at there
  simp only [link, List.getD_eq_getElem?_getD]
  cases isAfter : after.servers[server]? <;> cases isBefore : before.servers[server]? <;>
    simp_all

/-- Hosts and documents may change, but neither the requests under way nor the child servers as far
as they are started. -/
structure Unmoved (before after : Bridge) : Prop where
  config : after.config = before.config
  root : after.root = before.root
  current : after.current = before.current
  pending : after.router.pending = before.router.pending
  standings : after.standings = before.standings
  effects : before.wire.Adds Effect.Unstarted after.wire

namespace Unmoved

variable {bridge before middle after : Bridge}

theorem refl (bridge : Bridge) : bridge.Unmoved bridge :=
  ⟨rfl, rfl, rfl, rfl, rfl, .refl _⟩

theorem trans (first : before.Unmoved middle) (second : middle.Unmoved after) :
    before.Unmoved after where
  config := second.config.trans first.config
  root := second.root.trans first.root
  current := second.current.trans first.current
  pending := second.pending.trans first.pending
  standings := second.standings.trans first.standings
  effects := first.effects.trans second.effects

theorem standing (unmoved : before.Unmoved after) (server : Nat) :
    (after.link server).server.standing = (before.link server).server.standing :=
  standing_of_standings unmoved.standings server

theorem setLink {server : Nat} {link : Link} (unmoved : (bridge.link server).Unmoved link) :
    bridge.Unmoved (bridge.setLink server link) := by
  refine ⟨rfl, rfl, rfl, rfl, ?_, unmoved.effects⟩
  simp only [Bridge.standings, Bridge.setLink, List.map_set, unmoved.standing]
  by_cases within : server < bridge.servers.length
  · have held : (bridge.link server).server = bridge.servers[server] := by
      simp [Bridge.link, within]
    rw [held, ← List.map_set, List.set_getElem_self]
  · rw [List.set_eq_of_length_le (by simpa using within)]

theorem announce (bridge : Bridge) (uri : String) (diagnostics : List Diagnostic) :
    bridge.Unmoved (bridge.announce uri diagnostics) := by
  unfold Bridge.announce
  split
  · exact ⟨rfl, rfl, rfl, rfl, rfl, .emit _ trivial⟩
  · exact refl bridge

theorem putDiagnostics (bridge : Bridge) (source : Alias) (mapped : List Diagnostic) :
    bridge.Unmoved (bridge.putDiagnostics source mapped) := by
  unfold Bridge.putDiagnostics
  split
  · refine trans ?_ (announce _ _ _)
    exact ⟨rfl, rfl, rfl, rfl, rfl, .refl _⟩
  · exact refl bridge

theorem syncTo {server : Nat} {document : Document}
    (synced : bridge.syncTo server document = .ok after) : bridge.Unmoved after := by
  obtain ⟨aliasUri, _, rfl⟩ := Except.map_eq_ok synced
  exact setLink (.syncDocument _ _ _ _)

theorem syncDocument {host language : String}
    (synced : bridge.syncDocument host language = .ok after) : bridge.Unmoved after := by
  unfold Bridge.syncDocument at synced
  split at synced
  · split at synced
    · exact syncTo synced
    · cases synced
      exact refl bridge
  · cases synced
    exact refl bridge

theorem syncAll {server : Nat} {documents : List Document} {result : Except Fault Unit}
    (synced : Bridge.syncAll server documents bridge = (after, result)) : bridge.Unmoved after := by
  induction documents generalizing bridge with
  | nil =>
    cases synced
    exact refl _
  | cons document rest ih =>
    unfold Bridge.syncAll at synced
    cases first : bridge.syncTo server document with
    | error fault =>
      rw [first] at synced
      cases synced
      exact refl _
    | ok next =>
      rw [first] at synced
      exact (syncTo first).trans (ih synced)

theorem updateSettings (bridge : Bridge) (settings : Value) :
    bridge.Unmoved (bridge.updateSettings settings) := by
  unfold Bridge.updateSettings
  generalize bridge.current.values = servers
  induction servers generalizing bridge with
  | nil => exact refl bridge
  | cons server rest ih =>
    have first := setLink (Link.Unmoved.updateSettings (bridge.link server) settings)
    exact first.trans (ih _)

theorem closeDocuments (host : String) (documents : List Document) (bridge : Bridge) :
    bridge.Unmoved (Bridge.closeDocuments host documents bridge).1 := by
  induction documents generalizing bridge with
  | nil => exact refl bridge
  | cons document rest ih =>
    unfold Bridge.closeDocuments
    split
    · exact ih bridge
    · split
      · exact refl bridge
      · exact (setLink (.closeDocument _ _)).trans (ih _)

theorem closeHost (bridge : Bridge) (host : String) :
    bridge.Unmoved (bridge.closeHost host).1 := by
  have left : bridge.Unmoved { bridge with store := bridge.store.close host } :=
    ⟨rfl, rfl, rfl, rfl, rfl, .refl _⟩
  have closed := left.trans (closeDocuments host (bridge.store.documents host) _)
  unfold Bridge.closeHost
  dsimp only
  split
  · rename_i isClosed
    rw [isClosed] at closed
    exact closed
  · rename_i isClosed
    rw [isClosed] at closed
    refine closed.trans (trans ?_ (announce _ host []))
    exact ⟨rfl, rfl, rfl, rfl, rfl, .refl _⟩

end Unmoved

end Bridge

namespace Run

/-- No task gets other members. -/
def SameMembers (before after : Run) : Prop :=
  ∀ parent group, after.groups.get? parent = some group →
    ∃ earlier, before.groups.get? parent = some earlier ∧ group.members = earlier.members

/-- The tasks, the queue and the starts stay as they are, and the bridge is unmoved. -/
structure Unmoved (before after : Run) : Prop where
  bridge : before.bridge.Unmoved after.bridge
  startUps : after.startUps = before.startUps
  tasks : after.tasks = before.tasks
  ready : after.ready = before.ready
  nextTask : after.nextTask = before.nextTask
  finished : after.finished = before.finished
  groups : before.SameMembers after

theorem Unmoved.refl (run : Run) : run.Unmoved run :=
  ⟨.refl _, rfl, rfl, rfl, rfl, rfl, fun _ group found => ⟨group, found, rfl⟩⟩

theorem Unmoved.setBridge {run : Run} {bridge : Bridge} (unmoved : run.bridge.Unmoved bridge) :
    run.Unmoved (run.setBridge bridge) :=
  ⟨unmoved, rfl, rfl, rfl, rfl, rfl, (refl run).groups⟩

theorem Unmoved.log (run : Run) (severity : Severity) (text : String) :
    run.Unmoved (run.log severity text) :=
  .setBridge ⟨rfl, rfl, rfl, rfl, rfl, .emit _ trivial⟩

theorem Unmoved.eraseGroup (run : Run) (task : Nat) :
    run.Unmoved { run with groups := run.groups.erase task } :=
  ⟨.refl _, rfl, rfl, rfl, rfl, rfl, fun _ group found => ⟨group, (Table.of_get?_erase found).2, rfl⟩⟩

theorem Unmoved.putGroup {run : Run} {parent : Nat} {earlier group : Group}
    (known : run.groups.get? parent = some earlier) (same : group.members = earlier.members) :
    run.Unmoved { run with groups := run.groups.put parent group } := by
  refine ⟨.refl _, rfl, rfl, rfl, rfl, rfl, fun other later found => ?_⟩
  rcases Table.of_get?_put found with ⟨rfl, rfl⟩ | ⟨_, old⟩
  · exact ⟨earlier, known, same⟩
  · exact ⟨later, old, rfl⟩

/-! ### Moves -/

variable {run after : Run} {task : Nat} {errand later : Errand}

theorem Move.unmoved (move : Move task errand run later after) : run.Unmoved after := by
  cases move with
  | log run severity text => exact .log run severity text
  | close run => exact .eraseGroup run task
  | settings run settings => exact .setBridge (.updateSettings run.bridge settings)
  | receive run server message => exact .setBridge (.setLink (.receive _ message))
  | serve run server serves reply => exact .setBridge (.setLink (.resume serves _ reply))
  | publish run => exact .setBridge (.announce _ _ _)
  | skip down => exact .refl run
  | sync synced => exact .setBridge (.syncDocument synced)
  | request known => exact .setBridge (.setLink (.request _ _ _))
  | query run server params => exact .setBridge (.setLink (.request _ _ params))

theorem Move.requests (move : Move task errand run later after) :
    later.requests = errand.requests := by
  cases move <;> rfl

theorem Notes.unmoved {parent : Nat} (notes : run.Notes parent after) : run.Unmoved after := by
  rcases notes with rfl | ⟨earlier, group, known, same, _, rfl⟩
  · exact .refl _
  · exact .putGroup known same

end Run

end LanguageBridge
