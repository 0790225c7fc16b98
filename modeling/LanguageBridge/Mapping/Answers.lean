import LanguageBridge.Mapping.Edits
import LanguageBridge.Mapping.Hints
import LanguageBridge.Mapping.Locations
import LanguageBridge.Mapping.Symbols

namespace LanguageBridge

/-! One rule per request for bringing an answer back to the host. What can no longer be mapped,
because the host was edited meanwhile, is dropped. -/

namespace Item

def isCompletion : Item → Bool
  | completionItem _ => true
  | _ => false

def isHint : Item → Bool
  | inlayHint _ => true
  | _ => false

end Item

/-- Whether an answer has the shape that a request is meant to have. Some rules look into every
item, and then every item must be of the right kind. -/
def Answer.isRegular (answer : Answer) (method : Method) : Bool :=
  match method, answer with
  | _, .null => true
  | .completion, .one (.completionList _) => true
  | .completion, given => given.items.all Item.isCompletion
  | .completionResolve, .one item => item.isCompletion
  | .completionResolve, .many _ => false
  | .inlayHint, given => given.items.all Item.isHint
  | _, given => given.items.all Item.isRegular

namespace Store

def mapAnswer (store : Store) (context : Context) (answer : Answer) : Answer :=
  match context.method with
  | .definition | .typeDefinition | .implementation | .declaration | .references =>
    store.mapLocations context answer
  | .documentSymbol => store.mapSymbols context answer
  | .rename => store.mapRename answer
  | .prepareRename => store.mapRenameProposal context answer
  | .completion => store.mapCompletions context answer
  | .completionResolve => store.mapResolvedCompletion context answer
  | .hover => store.mapHover context answer
  | .inlayHint => store.mapHints context answer
  | .signatureHelp | .workspaceSymbol | .other _ => answer

/-- The answer in host terms, and the context with its parameters pointing at the host again. -/
def mapBack (store : Store) (context : Context) (answer : Answer) : Answer × Context :=
  match answer with
  | .null => (.null, context.restored)
  | given =>
    let settled :=
      if context.method = .completionResolve then context.restoreData else context
    (store.mapAnswer context given, settled.restored)

def mapAnswerValue (store : Store) (context : Context) (answer : Value) : Except Fault Value :=
  match context.method with
  | .definition | .typeDefinition | .implementation | .declaration | .references =>
    keepMappedItems (store.mapLocationValue context) answer
  | .documentSymbol => keepMappedItems (store.mapSymbolItemValue context) answer
  | .rename => store.mapRenameAnswer answer
  | .prepareRename => store.mapProposalValue context answer
  | .completion => store.mapCompletionAnswer context answer
  | .completionResolve => orNull (store.mapCompletionValue context answer)
  | .hover => store.mapHoverValue context answer
  | .inlayHint => store.mapHintAnswer context answer
  | .signatureHelp | .workspaceSymbol | .other _ => .ok answer

/-- As `mapBack`, for whatever a child server may say and an editor may ask. What is looked into
in vain is a fault, and the parameters then stay as they are. -/
def bringValueBack (store : Store) (context : Context) (answer : Answer) :
    Except Fault Answer × Context :=
  let settled :=
    match context.method, answer with
    | .completionResolve, .null => context
    | .completionResolve, _ => context.restoreData
    | _, _ => context
  let mapped : Except Fault Value :=
    match answer with
    | .null => .ok .null
    | given => store.mapAnswerValue context given.toValue
  match mapped with
  | .error fault => (.error fault, settled)
  | .ok value =>
    match settled.restore with
    | .error fault => (.error fault, settled)
    | .ok restored => (.ok (.ofValue value), restored)

def bringBack (store : Store) (context : Context) (answer : Answer) :
    Except Fault Answer × Context :=
  if answer.isRegular context.method && context.isRegular then
    let (mapped, restored) := store.mapBack context answer
    (.ok mapped, restored)
  else
    store.bringValueBack context answer

end Store

end LanguageBridge
