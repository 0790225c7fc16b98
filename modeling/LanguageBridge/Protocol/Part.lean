import LanguageBridge.Fault

namespace LanguageBridge

/-! Looking into data whose shape is not known beforehand. What is looked for and is not there is
a fault. -/

namespace Value

def placeParams : List String :=
  ["TextDocumentPositionParams", "DefinitionParams", "TypeDefinitionParams",
   "ImplementationParams", "DeclarationParams", "ReferenceParams", "RenameParams",
   "PrepareRenameParams", "CompletionParams", "HoverParams", "SignatureHelpParams",
   "DocumentHighlightParams", "DocumentOnTypeFormattingParams", "LinkedEditingRangeParams",
   "MonikerParams", "CallHierarchyPrepareParams", "TypeHierarchyPrepareParams",
   "InlineCompletionParams"]

def spanParams : List String :=
  ["InlayHintParams", "InlineValueParams", "CodeActionParams", "ColorPresentationParams",
   "DocumentRangeFormattingParams", "SemanticTokensRangeParams"]

def wholeParams : List String :=
  ["DocumentSymbolParams", "CodeLensParams", "DocumentLinkParams", "DocumentColorParams",
   "FoldingRangeParams", "SelectionRangeParams", "DocumentFormattingParams",
   "DocumentRangesFormattingParams", "SemanticTokensParams", "SemanticTokensDeltaParams",
   "DocumentDiagnosticParams", "DidOpenTextDocumentParams", "DidChangeTextDocumentParams",
   "DidCloseTextDocumentParams", "DidSaveTextDocumentParams", "WillSaveTextDocumentParams"]

def partOwners : List (String × List String) :=
  [("uri", ["Location", "LocationUriOnly", "TextDocumentIdentifier", "TextDocumentItem",
      "VersionedTextDocumentIdentifier", "OptionalVersionedTextDocumentIdentifier",
      "CreateFile", "DeleteFile", "FileCreate", "FileDelete", "FileEvent", "PreviousResultId",
      "WorkspaceFolder", "CallHierarchyItem", "TypeHierarchyItem", "PublishDiagnosticsParams"]),
   ("range", spanParams ++ ["Location", "DocumentSymbol", "TextEdit", "AnnotatedTextEdit",
      "SnippetTextEdit", "PrepareRenamePlaceholder", "Hover", "Diagnostic", "DocumentHighlight",
      "DocumentLink", "CodeLens", "SelectionRange", "ColorInformation", "CallHierarchyItem",
      "TypeHierarchyItem", "InlineValueText", "InlineValueVariableLookup",
      "InlineValueEvaluatableExpression", "InlineCompletionItem", "SelectedCompletionInfo",
      "TextDocumentContentChangePartial", "SemanticTokensOptions",
      "SemanticTokensRegistrationOptions", "ClientSemanticTokensRequestOptions"]),
   ("start", ["SemanticTokensEdit", "NotebookCellArrayChange"]),
   ("targetUri", ["LocationLink"]), ("targetRange", ["LocationLink"]),
   ("targetSelectionRange", ["LocationLink"]), ("originSelectionRange", ["LocationLink"]),
   ("name", ["DocumentSymbol", "SymbolInformation", "WorkspaceSymbol"]),
   ("selectionRange", ["DocumentSymbol", "CallHierarchyItem", "TypeHierarchyItem"]),
   ("children", ["DocumentSymbol"]),
   ("location", ["SymbolInformation", "WorkspaceSymbol", "InlayHintLabelPart",
      "DiagnosticRelatedInformation"]),
   ("changes", ["WorkspaceEdit"]), ("documentChanges", ["WorkspaceEdit"]),
   ("textDocument", ["TextDocumentEdit", "ClientCapabilities"] ++ placeParams ++ spanParams ++
      wholeParams),
   ("edits", ["TextDocumentEdit"]),
   ("oldUri", ["RenameFile"]), ("newUri", ["RenameFile"]),
   ("data", ["CompletionItem", "CompletionItemDefaults", "InlayHint", "WorkspaceSymbol",
      "Diagnostic", "CodeAction", "CodeLens", "DocumentLink", "CallHierarchyItem",
      "TypeHierarchyItem", "SemanticTokens", "SemanticTokensEdit", "SemanticTokensPartialResult",
      "CompletionItemApplyKinds", "ResponseError"]),
   ("textEdit", ["CompletionItem"]), ("additionalTextEdits", ["CompletionItem"]),
   ("insert", ["InsertReplaceEdit", "EditRangeWithInsertReplace"]),
   ("replace", ["InsertReplaceEdit", "EditRangeWithInsertReplace"]),
   ("items", ["CompletionList", "ConfigurationParams", "InlineCompletionList",
      "FullDocumentDiagnosticReport", "RelatedFullDocumentDiagnosticReport",
      "WorkspaceFullDocumentDiagnosticReport", "WorkspaceDiagnosticReport",
      "WorkspaceDiagnosticReportPartialResult"]),
   ("itemDefaults", ["CompletionList"]),
   ("editRange", ["CompletionItemDefaults"]),
   ("position", "InlayHint" :: placeParams),
   ("label", ["InlayHint"]), ("textEdits", ["InlayHint"]),
   ("message", ["Diagnostic", "LogMessageParams", "ShowMessageParams",
      "ShowMessageRequestParams"]),
   ("relatedInformation", ["Diagnostic"]),
   ("type", ["LogMessageParams", "ShowMessageParams", "ShowMessageRequestParams", "FileEvent"]),
   ("query", ["WorkspaceSymbolParams"]),
   ("section", ["ConfigurationItem", "DidChangeConfigurationRegistrationOptions"]),
   ("diagnostics", ["PublishDiagnosticsParams", "CodeActionContext", "CodeAction",
      "WorkspaceClientCapabilities"]),
   ("token", ["ProgressParams", "WorkDoneProgressCreateParams", "WorkDoneProgressCancelParams"]),
   ("value", ["ProgressParams", "MarkupContent", "StringValue", "SetTraceParams"])]

/-- A part of a structure. One that belongs to the structure is null when it is not given. -/
def part (owner : Value) (name : String) : Except Fault Value :=
  match owner with
  | .record type fields =>
    match Fields.get? fields name with
    | some value => .ok value
    | none =>
      if type ∈ (partOwners.lookup name).getD [] then .ok .null
      else .error (.missingPart owner name)
  | _ => .error (.missingPart owner name)

/-- What data has under a name, as an entry or as a part, or else null. -/
def named (value : Value) (name : String) : Value :=
  match value with
  | .map entries => (entries.lookup name).getD .null
  | .record _ fields => (Fields.get? fields name).getD .null
  | _ => .null

/-- What plain data has under a name that is that of no part, but of something to do with it. -/
def operation : Value :=
  .record "builtin_function_or_method" []

/-- Why data that is no range cannot be taken for one: it has no start, or a start that is no
place. -/
def rangeFault (value : Value) : Fault :=
  match value.part "start" with
  | .ok start => .missingPart start "line"
  | .error fault => fault

def hasPart (owner : Value) (name : String) : Bool :=
  (owner.part name).isOk

def givePart (owner : Value) (name : String) (value : Value) : Except Fault Value :=
  match owner with
  | .record type fields =>
    if owner.hasPart name then .ok (.record type (Fields.put fields name value))
    else .error (.unknownPart owner name)
  | .position _ | .range _ => .error (.unknownPart owner name)
  | other => .error (.notAStructure other)

def giveOptionalPart (owner : Value) (name : String) (value : Option Value) : Except Fault Value :=
  match value with
  | some value => owner.givePart name value
  | none => .ok owner

def key (value : Value) : Except Fault Key :=
  match value.key? with
  | some key => .ok key
  | none => .error (.notAKey value)

/-- The text by which something is looked up where nothing is entered but under texts. -/
def keyText? (value : Value) : Except Fault (Option String) :=
  value.key.map fun
    | .text text => some text
    | _ => none

def setPart (owner : Value) (name : String) (value : Value) : Value :=
  match owner with
  | .record type fields => .record type (Fields.update fields name fun _ => value)
  | unchanged => unchanged

def withoutPart (owner : Value) (name : String) : Value :=
  match owner with
  | .record type fields => .record type (Fields.without fields [name])
  | unchanged => unchanged

def changePart (owner : Value) (name : String) (change : Value → Except Fault Value) :
    Except Fault Value := do
  let part ← owner.part name
  let changed ← change part
  .ok (owner.setPart name changed)

def changePresentPart (owner : Value) (name : String) (change : Value → Except Fault Value) :
    Except Fault Value := do
  let part ← owner.part name
  if part.isNull then .ok owner else owner.changePart name change

/-- Changes a part unless it counts as absent. -/
def changeFilledPart (owner : Value) (name : String) (change : Value → Except Fault Value) :
    Except Fault Value := do
  let part ← owner.part name
  if part.isFilled then owner.changePart name change else .ok owner

def elements (value : Value) : Except Fault (List Value) :=
  match value.elements? with
  | some items => .ok items
  | none => .error (.notAList value)

def filledElements (value : Value) : Except Fault (List Value) :=
  if value.isFilled then value.elements else .ok []

def changeElements (value : Value) (change : Value → Except Fault Value) : Except Fault Value := do
  let items ← value.elements
  let changed ← items.mapM change
  .ok (.list changed)

end Value

end LanguageBridge
