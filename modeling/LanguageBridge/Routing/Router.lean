import LanguageBridge.Routing.Context
import LanguageBridge.Store

namespace LanguageBridge

/-! Which synthetic document a request of the editor belongs to, and the request as the child
server of that document gets it. -/

structure Router where
  pending : Pending := {}
  completionLanguages : Table String String := {}
  lastCompletionHost : Option String := none
deriving Repr, Inhabited

namespace Router

def rememberCompletion (router : Router) (method : Method) (host language : String) : Router :=
  if method = .completion then
    { router with
      completionLanguages := router.completionLanguages.put host language
      lastCompletionHost := some host }
  else
    router

def record (router : Router) (method : Method) (host language : String) (params : Params)
    (hostRange : Value) : Router × Except Fault Context :=
  let entered := router.pending.record method host language params hostRange
  ({ router with pending := entered.1 }, entered.2)

/-- Routes a request about one place. Outside every chunk there is nothing to ask, and nothing is
entered. -/
def route (router : Router) (store : Store) (host : String) (position : Position)
    (method : Method) (params : Params) : Router × Except Fault (Option Context) :=
  match store.languageAt? host position.line with
  | none => (router, .ok none)
  | some language =>
    match store.toSynthetic host language position with
    | .error _ => (router, .ok none)
    | .ok place =>
      match Alias.encode host language with
      | .error fault => (router, .error fault)
      | .ok aliasUri =>
        match params.readdress aliasUri (some place) none with
        | .error fault => (router, .error fault)
        | .ok outgoing =>
          let entered := (router.rememberCompletion method host language).record
            method host language outgoing .null
          (entered.1, entered.2.map some)

def wholeRange (document : Document) : Range :=
  ⟨⟨0, 0⟩, ⟨document.lineCount, 0⟩⟩

/-- A request about a whole document as the child server of one language gets it, with the host
range that it asks for. A request about a range asks for all of the synthetic document; the answer
is cut down later. -/
def widened (method : Method) (params : Params) (aliasUri : String) (document : Document) :
    Except Fault (Params × Value) := do
  if method = .inlayHint then
    let asked ← params.span
    let outgoing ← params.readdress aliasUri none (some (wholeRange document))
    .ok (outgoing, asked)
  else
    let outgoing ← params.readdress aliasUri none none
    .ok (outgoing, .null)

def fanOutOver (store : Store) (host : String) (method : Method) (params : Params) :
    List String → Router → Router × Except Fault (List Context)
  | [], router => (router, .ok [])
  | language :: rest, router =>
    match store.get? host language with
    | none => fanOutOver store host method params rest router
    | some document =>
      if document.chunks = [] then fanOutOver store host method params rest router
      else
        match Alias.encode host language with
        | .error fault => (router, .error fault)
        | .ok aliasUri =>
          match widened method params aliasUri document with
          | .error fault => (router, .error fault)
          | .ok (outgoing, asked) =>
            match router.record method host language outgoing asked with
            | (entered, .error fault) => (entered, .error fault)
            | (entered, .ok context) =>
              let later := fanOutOver store host method params rest entered
              (later.1, later.2.map (context :: ·))

def fanOut (router : Router) (store : Store) (host : String) (method : Method) (params : Params) :
    Router × Except Fault (List Context) :=
  fanOutOver store host method params (store.languages host) router

/-- The host and language that a completion item came from. Its data may hold an alias or a host;
otherwise it came from the last completion. -/
def origin? (router : Router) (data : Value) : Option Alias :=
  let byHost (host : String) : Option Alias :=
    (router.completionLanguages.get? host).map fun language => ⟨host, language⟩
  match data.lookUp? "uri" with
  | some (.str uri) =>
    match Alias.parse? uri with
    | some found => some found
    | none => byHost uri
  | _ => router.lastCompletionHost.bind byHost

/-- Routes a completion item back to where it came from; its data then names the alias again. -/
def routeResolve (router : Router) (item : Params) : Router × Except Fault (Option Context) :=
  match item.data with
  | .error fault => (router, .error fault)
  | .ok data =>
    match router.origin? data with
    | none => (router, .ok none)
    | some source =>
      match Alias.encode source.host source.language with
      | .error fault => (router, .error fault)
      | .ok aliasUri =>
        let entered := router.record .completionResolve source.host source.language
          (item.setDataUri aliasUri) .null
        (entered.1, entered.2.map some)

def complete (router : Router) (id : Nat) : Except Fault (Context × Router) :=
  match router.pending.consume id with
  | .error fault => .error fault
  | .ok (context, pending) => .ok (context, { router with pending := pending })

def discard (router : Router) (id : Nat) : Router :=
  { router with pending := router.pending.discard id }

def forgetHost (router : Router) (host : String) : Router :=
  { router with
    completionLanguages := router.completionLanguages.erase host
    lastCompletionHost :=
      if router.lastCompletionHost = some host then none else router.lastCompletionHost }

end Router

end LanguageBridge
