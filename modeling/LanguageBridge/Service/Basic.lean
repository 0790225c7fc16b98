import LanguageBridge.Bridge.Command
import LanguageBridge.Url.Path

namespace LanguageBridge

/-! The service that an editor talks to. Whenever it is configured it gets a new bridge; what the
bridges before have begun still goes on. All bridges share one configuration and one wire. -/

structure Service where
  config : Config := .standard
  /-- What the command line says about child servers, each as `LANG=COMMAND`. -/
  entries : List Value := []
  padding : Value := .null
  /-- Every bridge there has been; the last one is in use. -/
  runs : List Run
  wire : Wire := {}
  /-- The bridge whose child server of a language was given a client last. -/
  speakers : Table String Nat := {}
deriving Inhabited

/-- A bridge without hosts. Its padding stays as it is now. What its child servers have to say to
the editor does not get there, so that they have only their settings to go by. -/
def Config.newBridge (config : Config) : Bridge :=
  { config := config
    store := { padding := config.padding, names := config.names }
    editor := .silent }

def Bridge.reconfigure (bridge : Bridge) (config : Config) : Bridge :=
  { bridge with config := config, store := { bridge.store with names := config.names } }

namespace Service

/-- The service before it is configured: what the command line says has no effect yet. -/
def unconfigured (entries : List Value) (padding : Value) : Service :=
  { entries := entries
    padding := padding
    runs := [{ bridge := Config.standard.newBridge }] }

def active (service : Service) : Nat :=
  service.runs.length - 1

def run (service : Service) (bridge : Nat) : Run :=
  service.runs.getD bridge default

def bridge (service : Service) : Bridge :=
  (service.run service.active).bridge

def newClients (effects : List Effect) : List String :=
  effects.filterMap fun
    | .sent language _ (.create _) => some language
    | _ => none

/-- Lets one bridge do something on the common wire. A key under which it holds a reply is no
longer that of another bridge. -/
def within {α : Type} (service : Service) (bridge : Nat) (act : Run → α × Run) : α × Service :=
  let entering := service.run bridge
  let (result, left) :=
    act (entering.setBridge { entering.bridge with wire := service.wire })
  let wire := left.bridge.wire
  let others := service.runs.map fun run =>
    { run with held := left.held.keys.foldl Table.erase run.held }
  (result,
    { service with
      runs := others.set bridge left
      wire := wire
      speakers :=
        (newClients (wire.effects.drop service.wire.effects.length)).foldl
          (fun speakers language => speakers.put language bridge) service.speakers })

/-! ### Configuration -/

def setConfig (service : Service) (change : Config.Change) : Service :=
  { service with
    config := change.config
    wire := change.warnings.foldl (fun wire text => wire.log .warning text) service.wire
    runs := service.runs.map fun run => run.setBridge (run.bridge.reconfigure change.config) }

/-- Applies the options of the editor and then what the command line says, and changes over to a
new bridge. After a fault the bridge in use stays. -/
def configure (service : Service) (options : Value) : Service × Except Fault Unit :=
  let change := service.config.configure options service.entries service.padding
  let changed := service.setConfig change
  match change.fault with
  | some fault => (changed, .error fault)
  | none =>
    ({ changed with runs := changed.runs ++ [{ bridge := change.config.newBridge }] }, .ok ())

/-- The root of the workspace: the path of an address if one is given, or else a path. -/
def root? (address path : Option String) : Except Fault (Option String) :=
  match address.filter (· ≠ "") with
  | some url => (Url.path url).map fun escaped => some (Text.percentDecode escaped)
  | none => .ok (path.filter (· ≠ ""))

def setRoot (service : Service) (root : String) : Service :=
  let active := service.run service.active
  { service with
    runs := service.runs.set service.active
      (active.setBridge { active.bridge with root := some root }) }

def start (service : Service) (address path : Option String) (options : Value) :
    Service × Except Fault Unit :=
  match service.configure options with
  | (configured, .error fault) => (configured, .error fault)
  | (configured, .ok ()) =>
    match root? address path with
    | .error fault => (configured, .error fault)
    | .ok none => (configured, .ok ())
    | .ok (some root) => (configured.setRoot root, .ok ())

/-! ### Inspection -/

def chunkValue (chunk : Chunk) : Value :=
  .map
    [("hostStartLine", .int chunk.hostStart),
     ("hostEndLine", .int chunk.hostEnd),
     ("syntheticStartLine", .int chunk.syntheticStart)]

def documentValue (document : Document) : Value :=
  .map
    [("uri", .str document.hostUri),
     ("language", .str document.language),
     ("version", .int document.version),
     ("content", .str document.text),
     ("chunks", .list (document.chunks.map chunkValue))]

/-- Shows a synthetic document, or, where no language is given, the languages of a host. -/
def synthetic (service : Service) (params : Value) : Except Fault Value := do
  let store := service.bridge.store
  let uri := params.named "uri"
  let language := params.named "language"
  if uri.isFilled then
    let host ← uri.keyText?
    if language.isFilled then
      match host.filter store.contains with
      | none => .ok .null
      | some known =>
        let name ← language.keyText?
        .ok (((name.bind (store.get? known)).map documentValue).getD .null)
    else
      let languages := (host.map store.languages).getD []
      .ok (.map [("uri", uri), ("languages", .list (languages.map .str))])
  else
    .ok .null

end Service

end LanguageBridge
