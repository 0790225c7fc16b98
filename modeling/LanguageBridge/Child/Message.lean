import LanguageBridge.Child.Capabilities
import LanguageBridge.Protocol.Diagnostic
import LanguageBridge.Protocol.Method
import LanguageBridge.Protocol.Params
import LanguageBridge.Version

namespace LanguageBridge

/-! What the bridge sends: to child servers, to the editor, and to its log. -/

inductive ChildMessage where
  | create (name : String)
  | spawn (command : List String)
  | handshake (rootUri : Option String) (folderName : String) (options : Option Value)
  | ready
  | configure (settings : Value)
  | didOpen (aliasUri language : String) (version : Int) (text : String)
  | didChange (aliasUri : String) (version : Int) (text : String)
  | didClose (aliasUri : String)
  | request (method : Method) (params : Params)
  | shutdown
  | exit
  | stop
deriving Repr, Inhabited

namespace ChildMessage

def payload : ChildMessage → List Value
  | create name => [.str name, .str bridgeVersion]
  | spawn command => [.list (command.map .str)]
  | handshake rootUri folderName options =>
    [.record "InitializeParams" ([("capabilities", clientCapabilities)] ++
      Fields.optional "rootUri" (rootUri.map .str) ++
      Fields.optional "workspaceFolders" (rootUri.map fun uri =>
        .list [.record "WorkspaceFolder" [("uri", .str uri), ("name", .str folderName)]]) ++
      Fields.optional "initializationOptions" options)]
  | ready => [.record "InitializedParams" []]
  | configure settings =>
    [Value.structured "DidChangeConfigurationParams" [("settings", settings)]]
  | didOpen aliasUri language version text =>
    [.record "DidOpenTextDocumentParams" [("textDocument", .record "TextDocumentItem"
      [("uri", .str aliasUri), ("languageId", .str language), ("version", .int version),
       ("text", .str text)])]]
  | didChange aliasUri version text =>
    [.record "DidChangeTextDocumentParams"
      [("textDocument", .record "VersionedTextDocumentIdentifier"
        [("uri", .str aliasUri), ("version", .int version)]),
       ("contentChanges", .list [.record "TextDocumentContentChangeWholeDocument"
        [("text", .str text)]])]]
  | didClose aliasUri =>
    [.record "DidCloseTextDocumentParams" [("textDocument", .record "TextDocumentIdentifier"
      [("uri", .str aliasUri)])]]
  | request _ params => [params.toValue]
  | shutdown | exit | stop => [.null]

end ChildMessage

/-- Calls that reach the editor on behalf of a child server. -/
inductive EditorCall where
  | createProgress (token : Value)
  | configuration (params : Value)
  | beginProgress (token value : Value)
  | reportProgress (token value : Value)
  | endProgress (token value : Value)
  /-- Progress in a form that is passed on unread. -/
  | forwardProgress (token value : Value)
deriving Repr, Inhabited

inductive Severity where
  | error
  | warning
  | info
  | debug
deriving DecidableEq, Repr, Inhabited

/-- Everything that can be seen from outside, in the order in which it happens. -/
inductive Effect where
  | sent (language : String) (client : Nat) (message : ChildMessage)
  | called (call : EditorCall)
  | published (uri : String) (diagnostics : List Value)
  | logged (severity : Severity) (text : String)
deriving Repr, Inhabited

end LanguageBridge
