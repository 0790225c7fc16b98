import LanguageBridge.Protocol.Value

namespace LanguageBridge

/-! What the bridge tells every child server about itself. -/

def Value.switches (type : String) (names : List String) : Value :=
  .record type (names.map fun name => (name, .bool true))

def textDocumentCapabilities : Value :=
  .record "TextDocumentClientCapabilities"
    [("synchronization", .switches "TextDocumentSyncClientCapabilities" []),
     ("completion", .record "CompletionClientCapabilities"
       [("completionItem", .switches "ClientCompletionItemOptions" ["snippetSupport"])]),
     ("hover", .record "HoverClientCapabilities"
       [("contentFormat", .list [.str "markdown", .str "plaintext"])]),
     ("signatureHelp", .switches "SignatureHelpClientCapabilities" []),
     ("definition", .switches "DefinitionClientCapabilities" ["linkSupport"]),
     ("typeDefinition", .switches "TypeDefinitionClientCapabilities" ["linkSupport"]),
     ("implementation", .switches "ImplementationClientCapabilities" ["linkSupport"]),
     ("declaration", .switches "DeclarationClientCapabilities" ["linkSupport"]),
     ("references", .switches "ReferenceClientCapabilities" []),
     ("documentSymbol", .switches "DocumentSymbolClientCapabilities"
       ["hierarchicalDocumentSymbolSupport"]),
     ("rename", .switches "RenameClientCapabilities" ["prepareSupport"]),
     ("publishDiagnostics", .switches "PublishDiagnosticsClientCapabilities"
       ["relatedInformation"]),
     ("inlayHint", .switches "InlayHintClientCapabilities" [])]

def workspaceCapabilities : Value :=
  .record "WorkspaceClientCapabilities"
    [("configuration", .bool true),
     ("workspaceFolders", .bool true),
     ("workspaceEdit", .switches "WorkspaceEditClientCapabilities" ["documentChanges"]),
     ("symbol", .switches "WorkspaceSymbolClientCapabilities" [])]

def clientCapabilities : Value :=
  .record "ClientCapabilities"
    [("textDocument", textDocumentCapabilities),
     ("workspace", workspaceCapabilities),
     ("window", .switches "WindowClientCapabilities" ["workDoneProgress"])]

end LanguageBridge
