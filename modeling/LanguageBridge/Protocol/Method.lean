namespace LanguageBridge

/-! The requests that are passed on to child servers. -/

inductive Method where
  | definition
  | typeDefinition
  | implementation
  | declaration
  | references
  | documentSymbol
  | rename
  | prepareRename
  | completion
  | completionResolve
  | hover
  | signatureHelp
  | inlayHint
  | workspaceSymbol
  /-- Any other request; child servers are not asked it. -/
  | other (name : String)
deriving DecidableEq, Repr, Inhabited

namespace Method

def name : Method → String
  | definition => "textDocument/definition"
  | typeDefinition => "textDocument/typeDefinition"
  | implementation => "textDocument/implementation"
  | declaration => "textDocument/declaration"
  | references => "textDocument/references"
  | documentSymbol => "textDocument/documentSymbol"
  | rename => "textDocument/rename"
  | prepareRename => "textDocument/prepareRename"
  | completion => "textDocument/completion"
  | completionResolve => "completionItem/resolve"
  | hover => "textDocument/hover"
  | signatureHelp => "textDocument/signatureHelp"
  | inlayHint => "textDocument/inlayHint"
  | workspaceSymbol => "workspace/symbol"
  | other name => name

def positional : List Method :=
  [definition, typeDefinition, implementation, declaration, references, rename, prepareRename,
   completion, hover, signatureHelp]

/-- Requests about a whole document, which go to every language in it. -/
def fanOut : List Method :=
  [documentSymbol, inlayHint]

def supported : List Method :=
  positional ++ fanOut ++ [completionResolve, workspaceSymbol]

def ofName (name : String) : Method :=
  (supported.find? fun method => method.name = name).getD (other name)

end Method

end LanguageBridge
