import LanguageBridge.Child.Lifecycle

namespace LanguageBridge

/-! What a child server sends of its own accord: log lines, progress, questions about the
configuration, diagnostics. -/

inductive Topic where
  | diagnostics
  | configuration
  | log
  | progressToken
  | progress
deriving DecidableEq, Repr, Inhabited

def Topic.ofMethod? : String → Option Topic
  | "textDocument/publishDiagnostics" => some .diagnostics
  | "workspace/configuration" => some .configuration
  | "window/logMessage" => some .log
  | "window/workDoneProgress/create" => some .progressToken
  | "$/progress" => some .progress
  | _ => none

/-- How serious a log line is, by the number that the child server gives it. Whatever is no number
of a level is of no consequence. -/
def Severity.ofLevel (level : Value) : Except Fault Severity :=
  level.key.map fun
    | .number 1 => .error
    | .number 2 => .warning
    | .number 3 => .info
    | _ => .debug

inductive Inbound where
  | diagnostics (uri : String) (published : Value)
  | configuration (params : Value)
  | logMessage (severity : Severity) (text : String)
  | createProgress (token : Value)
  | progress (token value : Value)
  /-- A message that is looked into in vain. -/
  | unreadable (topic : Topic) (fault : Fault)
deriving Repr, Inhabited

namespace Inbound

def read (topic : Topic) (params : Value) : Except Fault Inbound := do
  match topic with
  | .diagnostics =>
    let uri ← params.part "uri"
    let published ← params.part "diagnostics"
    .ok (diagnostics uri.asText published)
  | .configuration => .ok (configuration params)
  | .log =>
    let level ← params.part "type"
    let severity ← Severity.ofLevel level
    let text ← params.part "message"
    .ok (logMessage severity text.asText)
  | .progressToken =>
    let token ← params.part "token"
    .ok (createProgress token)
  | .progress =>
    let token ← params.part "token"
    let value ← params.part "value"
    .ok (progress token value)

def ofValue (topic : Topic) (params : Value) : Inbound :=
  match read topic params with
  | .ok message => message
  | .error fault => unreadable topic fault

end Inbound

namespace Link

def relog (link : Link) (severity : Severity) (text : String) : Link :=
  link.log severity ("[" ++ link.server.language ++ "] " ++ text)

def labelTitle (language : String) (fields : Fields) : Fields :=
  fields.map fun field =>
    match field with
    | ("title", .str title) => ("title", .str (title ++ " (" ++ language ++ ")"))
    | unchanged => unchanged

def progressCall (language : String) (token value : Value) : EditorCall × Call :=
  match value with
  | .record "WorkDoneProgressBegin" fields =>
    (.beginProgress token (.record "WorkDoneProgressBegin" (labelTitle language fields)),
      .beginProgress)
  | .record "WorkDoneProgressReport" _ => (.reportProgress token value, .reportProgress)
  | .record "WorkDoneProgressEnd" _ => (.endProgress token value, .endProgress)
  | other => (.forwardProgress token other, .forwardProgress)

/-- Notes that progress has begun under a token, unless nothing can be looked up by it. -/
def noteToken (link : Link) (token value : Value) : Link :=
  match value, token.key? with
  | .record "WorkDoneProgressBegin" _, some key =>
    { link with wire := { link.wire with tokens := key :: link.wire.tokens } }
  | _, _ => link

/-- Passes progress on; it is no matter if the editor does not take it. -/
def progress (link : Link) (token value : Value) : Link :=
  match link.server.editor with
  | .absent => link
  | .present =>
    let (shown, call) := progressCall link.server.language token value
    (link.askEditor shown call).2
  | .silent => link.noteToken token value

def afterCreateProgress (reply : Reply) : Attempt Unit Unit :=
  match reply with
  | .hold key => .blocked key ()
  | .failure _ | .result _ => .done (.ok ())

/-- What a new progress comes to with an editor that does not reply. It is refused at once if
progress has begun under the token, or if nothing can be looked up by it. -/
def awaitProgress (link : Link) (token : Value) : Attempt Unit Unit :=
  match token.key? with
  | none => .done (.ok ())
  | some key => if key ∈ link.wire.tokens then .done (.ok ()) else .blocked none ()

def createProgress (link : Link) (token : Value) : Link × Attempt Unit Unit :=
  match link.server.editor with
  | .absent => (link, .done (.ok ()))
  | .present =>
    let (reply, asked) := link.askEditor (.createProgress token) .createProgress
    (asked, afterCreateProgress reply)
  | .silent => (link, link.awaitProgress token)

/-- The editor's answer counts; without one, or on an error, the settings do. -/
def afterConfiguration (link : Link) (params : Value) (reply : Reply) : Attempt Unit Answer :=
  match reply with
  | .hold key => .blocked key ()
  | .failure _ => .done (link.resolveSettings params)
  | .result .null => .done (link.resolveSettings params)
  | .result answer => .done (.ok answer)

def configuration (link : Link) (params : Value) : Link × Attempt Unit Answer :=
  match link.server.editor with
  | .present =>
    let (reply, asked) := link.askEditor (.configuration params) .configuration
    (asked, asked.afterConfiguration params reply)
  | .absent | .silent => (link, .done (link.resolveSettings params))

/-- What comes of a message that is looked into in vain. Progress is not looked into unless there
is an editor, and a new progress may as well not be there. -/
def unreadable (link : Link) (topic : Topic) (fault : Fault) : Except Fault Unit :=
  match topic with
  | .progressToken => .ok ()
  | .progress => if link.server.editor = .absent then .ok () else .error fault
  | .diagnostics | .configuration | .log => .error fault

end Link

end LanguageBridge
