import LanguageBridge.Child.Root
import LanguageBridge.Child.Wire

namespace LanguageBridge

/-! One child server: the language server of one embedded language, seen from the bridge. -/

inductive Editor where
  | absent
  /-- An editor that sees what is passed on and replies to it. -/
  | present
  /-- An editor that is out of reach: it sees nothing, cannot be asked for settings, and a new
  progress waits for it for good. -/
  | silent
deriving DecidableEq, Repr, Inhabited

structure ChildServer where
  language : String
  command : List String
  settings : Value := .map []
  editor : Editor := .absent
  client : Option Nat := none
  started : Bool := false
  /-- A server that has failed to start is not tried again. -/
  failed : Bool := false
  /-- The documents that the server has open, with the version last sent. -/
  openDocuments : Table String Int := {}
deriving Repr, Inhabited

structure Link where
  server : ChildServer
  wire : Wire
deriving Repr, Inhabited

namespace Link

def emit (link : Link) (client : Nat) (message : ChildMessage) : Link :=
  { link with wire := link.wire.emit (.sent link.server.language client message) }

def log (link : Link) (severity : Severity) (text : String) : Link :=
  { link with wire := link.wire.log severity text }

def logLabel (link : Link) : String :=
  "BACKEND[" ++ link.server.language ++ "]: "

def take (link : Link) (call : Call) : Reply × Link :=
  let (reply, wire) := link.wire.take (.child link.server.language) call
  (reply, { link with wire := wire })

/-- The reply of the editor to a call, which is seen before it is answered. -/
def askEditor (link : Link) (shown : EditorCall) (call : Call) : Reply × Link :=
  let (reply, wire) := (link.wire.emit (.called shown)).take .editor call
  (reply, { link with wire := wire })

def client? (link : Link) : Option Nat :=
  if link.server.started then link.server.client else none

/-! ### Documents -/

def isOpen (link : Link) (aliasUri : String) : Bool :=
  link.server.openDocuments.contains aliasUri

def noteVersion (link : Link) (aliasUri : String) (version : Int) : Link :=
  { link with server := { link.server with
    openDocuments := link.server.openDocuments.put aliasUri version } }

/-- Opens a document, or sends its text again if the version is another than before. -/
def syncDocument (link : Link) (aliasUri text : String) (version : Int) : Link :=
  match link.client? with
  | none => link
  | some client =>
    match link.server.openDocuments.get? aliasUri with
    | none =>
      (link.emit client (.didOpen aliasUri link.server.language version text)).noteVersion
        aliasUri version
    | some known =>
      if known = version then link
      else (link.emit client (.didChange aliasUri version text)).noteVersion aliasUri version

/-- Why a document cannot be brought up to this version, if it would have to be. -/
def versionFault? (link : Link) (aliasUri : String) (version : Int) : Option Fault :=
  if link.client?.isNone || (versionRange.1 ≤ version && version ≤ versionRange.2) then none
  else
    match link.server.openDocuments.get? aliasUri with
    | none => some (.versionBounds "TextDocumentItem" version)
    | some known =>
      if known = version then none
      else some (.versionBounds "VersionedTextDocumentIdentifier" version)

def closeDocument (link : Link) (aliasUri : String) : Link :=
  if link.isOpen aliasUri then
    let closed := { link with server := { link.server with
      openDocuments := link.server.openDocuments.erase aliasUri } }
    match closed.client? with
    | none => closed
    | some client => closed.emit client (.didClose aliasUri)
  else
    link

/-! ### Settings -/

/-- Settings that are a map are kept; any are passed on to a server that is up. -/
def updateSettings (link : Link) (settings : Value) : Link :=
  let kept :=
    if settings.isMap then { link with server := { link.server with settings := settings } }
    else link
  match kept.client? with
  | none => kept
  | some client => kept.emit client (.configure settings)

/-- Follows the parts of a section name into the settings; what is not there is an empty map. -/
def sectionOf (value : Value) : List String → Value
  | [] => value
  | part :: rest =>
    match value.lookUp? part with
    | some inner => sectionOf inner rest
    | none => .map []

/-- The settings of the section that an item names; without a name these are all settings. -/
def settingsOf (settings item : Value) : Except Fault Value := do
  let name ← item.part "section"
  if name.isFilled then
    match name with
    | .str path => .ok (sectionOf settings (path.splitOn "."))
    | other => .error (.missingPart other "split")
  else
    .ok settings

/-- The items of a configuration request. A plain map has no items to go through, but something
of that name. -/
def askedItems (params : Value) : Except Fault (List Value) :=
  match params with
  | .map _ => .error (.notAList .operation)
  | other => do
      let items ← other.part "items"
      items.elements

def resolveSettings (link : Link) (params : Value) : Except Fault Answer := do
  let items ← askedItems params
  let found ← items.mapM (settingsOf link.server.settings)
  .ok (.many (found.map .other))

end Link

end LanguageBridge
