import LanguageBridge.Child.Session
import LanguageBridge.Config
import LanguageBridge.Mapping.Answers
import LanguageBridge.Mapping.Diagnostics
import LanguageBridge.Routing.Router

namespace LanguageBridge

/-! The bridge: the open hosts, the child servers of their languages, and the diagnostics they
have published. Here is what it does without waiting for anyone. -/

structure Bridge where
  config : Config
  store : Store
  router : Router := {}
  root : Option String := none
  publishes : Bool := true
  editor : Editor := .absent
  /-- Every child server there has been; their numbers are their places. -/
  servers : List ChildServer := []
  /-- The child server of a language, in the order in which they were created. -/
  current : Table String Nat := {}
  /-- The child server of a language that was given a client last. -/
  speakers : Table String Nat := {}
  /-- What was published last, by host and then by language. -/
  diagnostics : Table String (Table String (List Diagnostic)) := {}
  wire : Wire := {}
deriving Inhabited

namespace Bridge

def link (bridge : Bridge) (server : Nat) : Link :=
  ⟨bridge.servers.getD server default, bridge.wire⟩

def setLink (bridge : Bridge) (server : Nat) (link : Link) : Bridge :=
  { bridge with servers := bridge.servers.set server link.server, wire := link.wire }

/-! ### Diagnostics -/

/-- All that is known about a host: warnings about its regions first. -/
def diagnosticsOf (bridge : Bridge) (uri : String) : List Diagnostic :=
  (bridge.store.malformed uri).map MalformedRegion.diagnostic ++
    ((bridge.diagnostics.get? uri).getD {}).values.flatten

def announce (bridge : Bridge) (uri : String) (diagnostics : List Diagnostic) : Bridge :=
  if bridge.publishes then
    { bridge with wire := bridge.wire.emit (.published uri (diagnostics.map Diagnostic.toValue)) }
  else
    bridge

def publish (bridge : Bridge) (uri : String) : Bridge :=
  bridge.announce uri (bridge.diagnosticsOf uri)

/-- Takes over the diagnostics of a language in a host, if the host is open. -/
def putDiagnostics (bridge : Bridge) (source : Alias) (mapped : List Diagnostic) : Bridge :=
  if bridge.store.contains source.host then
    let known := (bridge.diagnostics.get? source.host).getD {}
    { bridge with
      diagnostics := bridge.diagnostics.put source.host (known.put source.language mapped)
    }.publish source.host
  else
    bridge

/-- Takes over what a child server publishes for one of its documents. Other documents are of no
concern. -/
def receiveDiagnostics (bridge : Bridge) (uri : String) (published : Value) :
    Except Fault Bridge :=
  (bridge.store.bringPublicationBack uri published).map fun
    | none => bridge
    | some (source, mapped) => bridge.putDiagnostics source mapped

/-! ### Child servers -/

def addServer (bridge : Bridge) (language : String) (command : List String) : Bridge :=
  let created : ChildServer :=
    { language := language
      command := command
      settings := bridge.config.settingsFor language
      editor := bridge.editor }
  { bridge with
    servers := bridge.servers ++ [created]
    current := bridge.current.put language bridge.servers.length }

/-- The child server of a language; it is created on first use if there is a command for it. -/
def findServer (bridge : Bridge) (language : String) : Bridge × Option Nat :=
  match bridge.current.get? language with
  | some server => (bridge, some server)
  | none =>
    match bridge.config.commandFor? language with
    | none => (bridge, none)
    | some command => (bridge.addServer language command, some bridge.servers.length)

def syncTo (bridge : Bridge) (server : Nat) (document : Document) : Except Fault Bridge :=
  (Alias.encode document.hostUri document.language).map fun aliasUri =>
    bridge.setLink server
      ((bridge.link server).syncDocument aliasUri document.text document.version)

/-- Brings one document of a host to the child server of its language, if that is up. -/
def syncDocument (bridge : Bridge) (host language : String) : Except Fault Bridge :=
  match bridge.store.get? host language, bridge.current.get? language with
  | some document, some server =>
    if (bridge.link server).server.started then bridge.syncTo server document else .ok bridge
  | _, _ => .ok bridge

/-- Brings documents to a child server, one after the other, up to the first fault. -/
def syncAll (server : Nat) : List Document → Bridge → Bridge × Except Fault Unit
  | [], bridge => (bridge, .ok ())
  | document :: rest, bridge =>
    match bridge.syncTo server document with
    | .error fault => (bridge, .error fault)
    | .ok synced => syncAll server rest synced

def documentsIn (bridge : Bridge) (language : String) : List Document :=
  bridge.store.allDocuments.filter fun document => document.language = language

def updateSettings (bridge : Bridge) (settings : Value) : Bridge :=
  bridge.current.values.foldl
    (fun bridge server => bridge.setLink server ((bridge.link server).updateSettings settings))
    bridge

/-! ### Hosts -/

def closeDocuments (host : String) : List Document → Bridge → Bridge × Except Fault Unit
  | [], bridge => (bridge, .ok ())
  | document :: rest, bridge =>
    match bridge.current.get? document.language with
    | none => closeDocuments host rest bridge
    | some server =>
      match Alias.encode host document.language with
      | .error fault => (bridge, .error fault)
      | .ok aliasUri =>
        closeDocuments host rest
          (bridge.setLink server ((bridge.link server).closeDocument aliasUri))

def closeHost (bridge : Bridge) (host : String) : Bridge × Except Fault Unit :=
  let documents := bridge.store.documents host
  match closeDocuments host documents { bridge with store := bridge.store.close host } with
  | (closed, .error fault) => (closed, .error fault)
  | (closed, .ok ()) =>
    ({ closed with
        router := closed.router.forgetHost host
        diagnostics := closed.diagnostics.erase host }.announce host [], .ok ())

end Bridge

end LanguageBridge
