import LanguageBridge.Proofs.Bridge.Messages
import LanguageBridge.Proofs.Bridge.Presence
import LanguageBridge.Proofs.Bridge.Unmoved

namespace LanguageBridge

/-! Requests are entered before they are sent, under numbers that count up. A request to all languages
of a host is entered for each of them or for none: what can be readdressed to one alias can be
readdressed to any. A command then takes its turn with the requests in hand. -/

/-! ### Parameters that can be readdressed -/

/-- Data that has the same parts, whatever they are. -/
inductive Value.Alike : Value → Value → Prop where
  | same (value : Value) : Alike value value
  | record (type : String) {fields others : Fields}
      (parts : ∀ name, (Fields.get? fields name).isSome = (Fields.get? others name).isSome) :
      Alike (.record type fields) (.record type others)

/-- Two attempts that both fail, or come to data with the same parts. -/
inductive Value.BothGiven : Except Fault Value → Except Fault Value → Prop where
  | given {first second : Value} (alike : first.Alike second) : BothGiven (.ok first) (.ok second)
  | refused (one other : Fault) : BothGiven (.error one) (.error other)

theorem Value.BothGiven.bind_isOk {α : Type} {one other : Except Fault Value}
    (both : BothGiven one other) {next another : Value → Except Fault α}
    (same : ∀ first second, first.Alike second → (next first).isOk = (another second).isOk) :
    (one >>= next).isOk = (other >>= another).isOk := by
  cases both with
  | given alike => exact same _ _ alike
  | refused => rfl

namespace Value.Alike

variable {first second : Value}

theorem hasPart (alike : first.Alike second) (name : String) :
    first.hasPart name = second.hasPart name := by
  cases alike with
  | same => rfl
  | record type parts =>
    rename_i fields others
    have here := parts name
    simp only [Value.hasPart, Value.part]
    cases inFields : Fields.get? fields name <;> cases inOthers : Fields.get? others name <;>
      simp only [inFields, inOthers, Option.isSome_none, Option.isSome_some, reduceCtorEq] at here
    · dsimp only
      split <;> rfl
    · rfl

theorem givePart (alike : first.Alike second) (name : String) (one other : Value) :
    BothGiven (first.givePart name one) (second.givePart name other) := by
  have whole : ∀ {type : String} {fields others : Fields},
      (∀ name, (Fields.get? fields name).isSome = (Fields.get? others name).isSome) →
      ((.record type fields : Value).hasPart name = (.record type others : Value).hasPart name) →
      BothGiven ((.record type fields : Value).givePart name one)
        ((.record type others : Value).givePart name other) := by
    intro type fields others parts sameName
    simp only [Value.givePart]
    by_cases has : (.record type others : Value).hasPart name
    · rw [if_pos (sameName.trans has), if_pos has]
      refine .given (.record type fun wanted => ?_)
      rw [Fields.get?_put, Fields.get?_put]
      split
      · rfl
      · exact parts wanted
    · rw [if_neg (by rw [sameName]; exact has), if_neg has]
      exact .refused _ _
  cases alike with
  | same =>
    cases first with
    | record type fields => exact whole (fun _ => rfl) rfl
    | _ => exact .refused _ _
  | record type parts => exact whole parts ((Alike.record type parts).hasPart name)

theorem giveOptionalPart (alike : first.Alike second) (name : String) {one other : Option Value}
    (both : one.isSome = other.isSome) :
    BothGiven (first.giveOptionalPart name one) (second.giveOptionalPart name other) := by
  cases one <;> cases other <;> simp at both
  · exact .given alike
  · exact alike.givePart name _ _

end Value.Alike

namespace Params

/-- Whether parameters can be readdressed does not depend on the address. -/
theorem readdressValue_isOk (params : Value) (uri another : String) {place there : Option Position}
    {span reach : Option Range} (places : place.isSome = there.isSome)
    (spans : span.isSome = reach.isSome) :
    (readdressValue params uri place span).isOk = (readdressValue params another there reach).isOk := by
  have bothPlaced : (place.map Value.position).isSome = (there.map Value.position).isSome := by
    simpa using places
  have bothSpanned : (span.map Value.range).isSome = (reach.map Value.range).isSome := by
    simpa using spans
  refine ((Value.Alike.same params).givePart "textDocument" _ _).bind_isOk ?_
  intro addressed other alike
  refine (alike.giveOptionalPart "position" bothPlaced).bind_isOk ?_
  intro placed other alike
  refine (alike.giveOptionalPart "range" bothSpanned).bind_isOk ?_
  exact fun _ _ _ => rfl

theorem readdress_isOk (params : Params) (uri another : String) {place there : Option Position}
    {span reach : Option Range} (places : place.isSome = there.isSome)
    (spans : span.isSome = reach.isSome) :
    (params.readdress uri place span).isOk = (params.readdress another there reach).isOk := by
  have noPlace : place.isNone = there.isNone := by
    rw [← Option.not_isSome, ← Option.not_isSome, places]
  have noSpan : span.isNone = reach.isNone := by
    rw [← Option.not_isSome, ← Option.not_isSome, spans]
  cases params with
  | document about =>
    simp only [readdress, noPlace, noSpan]
    split
    · rfl
    · exact readdressValue_isOk _ uri another places spans
  | item completion => exact readdressValue_isOk _ uri another places spans
  | other value => exact readdressValue_isOk _ uri another places spans

end Params

/-! ### Requests that are entered -/

/-- The table after requests were entered one after the other, each under the next number. -/
def Pending.Issues : List Context → Pending → Pending → Prop
  | [], before, after => after = before
  | context :: rest, before, after =>
    context.id = before.next ∧
      Issues rest ⟨before.next + 1, before.contexts.put context.id context⟩ after

theorem Pending.record_issues (pending : Pending) (method : Method) {host language aliasUri : String}
    (params : Params) (hostRange : Value) (encoded : Alias.encode host language = .ok aliasUri) :
    ∃ context, (pending.record method host language params hostRange).2 = .ok context ∧
      Issues [context] pending (pending.record method host language params hostRange).1 := by
  simp only [Pending.record, encoded]
  exact ⟨_, rfl, rfl, rfl⟩

namespace Router

variable {router : Router} {store : Store} {host : String} {method : Method} {params : Params}

/-- The requests that routing has come to. -/
def routed (result : Except Fault (Option Context)) : List Context :=
  result.toOption.join.toList

theorem of_mem_routed {result : Except Fault (Option Context)} {context : Context}
    (member : context ∈ routed result) : result = .ok (some context) := by
  rcases result with fault | _ | other
  · contradiction
  · contradiction
  · rw [List.mem_singleton.mp member]

theorem rememberCompletion_pending (router : Router) (method : Method) (host language : String) :
    (router.rememberCompletion method host language).pending = router.pending := by
  unfold rememberCompletion
  split <;> rfl

theorem record_issues (router : Router) (method : Method) {host language aliasUri : String}
    (params : Params) (hostRange : Value) (encoded : Alias.encode host language = .ok aliasUri) :
    ∃ context entered, router.record method host language params hostRange = (entered, .ok context) ∧
      router.pending.Issues [context] entered.pending := by
  obtain ⟨context, isContext, issues⟩ :=
    router.pending.record_issues method params hostRange encoded
  refine ⟨context, { router with pending := _ }, ?_, issues⟩
  simp only [record, isContext]

theorem route_issues (router : Router) (store : Store) (host : String) (position : Position)
    (method : Method) (params : Params) :
    router.pending.Issues (routed (router.route store host position method params).2)
      (router.route store host position method params).1.pending := by
  unfold route
  split
  · rfl
  · rename_i language _
    split
    · rfl
    · split
      · rfl
      · rename_i aliasUri encoded
        split
        · rfl
        · rename_i outgoing _
          obtain ⟨context, entered, recorded, issues⟩ := record_issues
            (router.rememberCompletion method host language) method outgoing .null encoded
          rw [rememberCompletion_pending] at issues
          dsimp only
          rw [recorded]
          exact issues

theorem routeResolve_issues (router : Router) (item : Params) :
    router.pending.Issues (routed (router.routeResolve item).2)
      (router.routeResolve item).1.pending := by
  unfold routeResolve
  split
  · rfl
  · split
    · rfl
    · split
      · rfl
      · rename_i aliasUri encoded
        obtain ⟨context, entered, recorded, issues⟩ :=
          record_issues router .completionResolve (item.setDataUri aliasUri) .null encoded
        dsimp only
        rw [recorded]
        exact issues

/-! ### Requests to all languages -/

theorem widened_isOk (method : Method) (params : Params) (uri another : String)
    (document other : Document) :
    (widened method params uri document).isOk = (widened method params another other).isOk := by
  have mapped : ∀ {one other : Except Fault Params} (asked : Value), one.isOk = other.isOk →
      (one >>= fun outgoing => .ok (outgoing, asked) : Except Fault (Params × Value)).isOk =
        (other >>= fun outgoing => .ok (outgoing, asked) : Except Fault (Params × Value)).isOk := by
    intro one other asked same
    cases one <;> cases other <;> first | rfl | exact same
  unfold widened
  split
  · cases params.span with
    | error fault => rfl
    | ok asked => exact mapped asked (params.readdress_isOk uri another rfl rfl)
  · exact mapped .null (params.readdress_isOk uri another rfl rfl)

theorem fanOutOver_entered (languages : List String) (router : Router)
    (named : ∀ language document, store.get? host language = some document →
      host ≠ "" ∧ language ≠ "")
    (fits : ∀ aliasUri document, (widened method params aliasUri document).isOk) :
    ∃ contexts later, fanOutOver store host method params languages router = (later, .ok contexts) ∧
      router.pending.Issues contexts later.pending := by
  induction languages generalizing router with
  | nil => exact ⟨[], router, rfl, rfl⟩
  | cons language rest ih =>
    unfold fanOutOver
    split
    · exact ih router
    · rename_i document held
      split
      · exact ih router
      · obtain ⟨hostNamed, languageNamed⟩ := named language document held
        obtain ⟨aliasUri, encoded⟩ := Alias.exists_encode hostNamed languageNamed
        have fitsHere := fits aliasUri document
        simp only [encoded]
        cases isWidened : widened method params aliasUri document with
        | error fault =>
          rw [isWidened] at fitsHere
          contradiction
        | ok result =>
          obtain ⟨outgoing, asked⟩ := result
          obtain ⟨context, entered, recorded, first⟩ :=
            router.record_issues method outgoing asked encoded
          obtain ⟨contexts, later, isLater, others⟩ := ih entered
          obtain ⟨number, isEntered⟩ := first
          refine ⟨context :: contexts, later, ?_, number, ?_⟩
          · simp only [recorded, isLater]
            rfl
          · rw [← isEntered]
            exact others

theorem fanOutOver_refused (router : Router) (store : Store) (host : String) (languages : List String)
    (refused : ∀ aliasUri document, (widened method params aliasUri document).isOk = false) :
    fanOutOver store host method params languages router = (router, .ok []) ∨
      ∃ fault, fanOutOver store host method params languages router = (router, .error fault) := by
  induction languages with
  | nil => exact Or.inl rfl
  | cons language rest ih =>
    unfold fanOutOver
    split
    · exact ih
    · rename_i document _
      split
      · exact ih
      · split
        · exact Or.inr ⟨_, rfl⟩
        · rename_i aliasUri _
          split
          · exact Or.inr ⟨_, rfl⟩
          · rename_i isWidened
            have refusedHere := refused aliasUri document
            rw [isWidened] at refusedHere
            contradiction

theorem fanOut_issues (router : Router) (store : Store) (host : String) (method : Method)
    (params : Params)
    (named : ∀ language document, store.get? host language = some document →
      host ≠ "" ∧ language ≠ "") :
    router.pending.Issues ((router.fanOut store host method params).2.toOption.getD [])
      (router.fanOut store host method params).1.pending := by
  unfold fanOut
  cases fits : (widened method params "" default).isOk with
  | true =>
    obtain ⟨contexts, later, isLater, issues⟩ := fanOutOver_entered (store.languages host) router
      named fun aliasUri document => (widened_isOk method params aliasUri "" document default).trans fits
    rw [isLater]
    exact issues
  | false =>
    rcases fanOutOver_refused router store host (store.languages host)
      fun aliasUri document => (widened_isOk method params aliasUri "" document default).trans fits
      with isRouter | ⟨fault, isRouter⟩
    · rw [isRouter]
      rfl
    · rw [isRouter]
      rfl

end Router

/-! ### Commands -/

namespace Bridge

/-- What a command does at once to the hosts and to the requests. -/
def taking (bridge : Bridge) : BridgeCommand → Bridge
  | .openHost uri text languageId =>
    { bridge with store := bridge.store.openHost uri text languageId }
  | .editHost uri text changed => { bridge with store := bridge.store.update uri text changed }
  | .closeHost uri => (bridge.closeHost uri).1
  | .dispatch uri position method params =>
    { bridge with router := (bridge.router.route bridge.store uri position method params).1 }
  | .dispatchAll uri method params =>
    { bridge with router := (bridge.router.fanOut bridge.store uri method params).1 }
  | .resolve item => { bridge with router := (bridge.router.routeResolve item).1 }
  | _ => bridge

theorem closeHost_pending (bridge : Bridge) (host : String) :
    (bridge.closeHost host).1.router.pending = bridge.router.pending :=
  (Unmoved.closeHost bridge host).pending

theorem Aside.hear (bridge : Bridge) (publication : Option (Alias × List Diagnostic)) :
    bridge.Aside (bridge.hear publication) := by
  cases publication with
  | none => exact .refl bridge
  | some publication => exact .putDiagnostics bridge publication.1 publication.2

theorem Unmoved.hear (bridge : Bridge) (publication : Option (Alias × List Diagnostic)) :
    bridge.Unmoved (bridge.hear publication) := by
  cases publication with
  | none => exact .refl bridge
  | some publication => exact .putDiagnostics bridge publication.1 publication.2

theorem unmoved_taking (bridge : Bridge) (command : BridgeCommand) :
    ({ bridge with router := (bridge.taking command).router } : Bridge).Unmoved
      (bridge.taking command) := by
  cases command with
  | openHost uri text languageId => exact ⟨rfl, rfl, rfl, rfl, rfl, .refl _⟩
  | editHost uri text changed => exact ⟨rfl, rfl, rfl, rfl, rfl, .refl _⟩
  | closeHost uri =>
    have closed := Unmoved.closeHost bridge uri
    exact ⟨closed.config, closed.root, closed.current, rfl, closed.standings, closed.effects⟩
  | _ => exact .refl _

end Bridge

namespace Run

/-- The requests that an event enters. -/
def issued (run : Run) : BridgeEvent → List Context
  | .command (.dispatch uri position method params) =>
    Router.routed (run.bridge.router.route run.bridge.store uri position method params).2
  | .command (.dispatchAll uri method params) =>
    (run.bridge.router.fanOut run.bridge.store uri method params).2.toOption.getD []
  | .command (.resolve item) => Router.routed (run.bridge.router.routeResolve item).2
  | _ => []

/-- What a child server publishes with an event, brought back to the host as it is at that moment. -/
def publication? (run : Run) : BridgeEvent → Option (Alias × List Diagnostic)
  | .command (.diagnostics uri published) =>
    (run.bridge.store.bringPublicationBack uri published).toOption.join
  | .command (.receive language (.diagnostics uri published)) =>
    (run.bridge.speakers.get? language).bind fun _ =>
      published.filledElements.toOption.bind fun items =>
        (run.bridge.store.bringPublicationBack uri (.list items)).toOption.join
  | _ => none

/-- The run in which the task of a command begins. What a child server publishes is taken over. -/
def taking (run : Run) (command : BridgeCommand) : Run :=
  { run with
    nextTask := run.nextTask + 1
    bridge := (run.bridge.taking command).hear (run.publication? (.command command)) }

theorem router_taking (run : Run) (command : BridgeCommand) :
    (run.taking command).bridge.router = (run.bridge.taking command).router :=
  (Bridge.hear_rests _ _).router

theorem store_taking (run : Run) (command : BridgeCommand) :
    (run.taking command).bridge.store = (run.bridge.taking command).store :=
  (Bridge.hear_rests _ _).store

/-- The run in which a command takes its first step, with its requests entered. -/
def entered (run : Run) (router : Router) : Run :=
  { run with
    nextTask := run.nextTask + 1
    bridge := { run.bridge with router := router } }

/-- What the task of a command has to do. -/
def errandOf (run : Run) : BridgeCommand → Errand
  | .openHost uri text languageId =>
    .sync uri ((run.bridge.store.openHost uri text languageId).languages uri)
  | .editHost uri text changed =>
    .sync uri (Store.changedLanguages run.bridge.store
      (run.bridge.store.update uri text changed) uri).mergeSort
  | .dispatch uri position method params =>
    .ask (run.issued (.command (.dispatch uri position method params))) .direct none
  | .dispatchAll uri method params =>
    .ask (run.issued (.command (.dispatchAll uri method params))) .direct none
  | .resolve item => .ask (run.issued (.command (.resolve item))) (.resolving item) none
  | .search _ => .search
  | _ => .other

theorem requests_errandOf (run : Run) (command : BridgeCommand) :
    (run.errandOf command).requests = run.issued (.command command) := by
  cases command <;> rfl

theorem taking_issues {run : Run} (orderly : run.bridge.Orderly) (command : BridgeCommand) :
    run.bridge.router.pending.Issues (run.issued (.command command))
      (run.taking command).bridge.router.pending := by
  rw [router_taking]
  cases command with
  | dispatch uri position method params =>
    exact Router.route_issues _ run.bridge.store uri position method params
  | dispatchAll uri method params =>
    exact Router.fanOut_issues _ run.bridge.store uri method params fun _ _ held =>
      (orderly.store.named held).2
  | resolve item => exact Router.routeResolve_issues _ item
  | closeHost uri => exact Bridge.closeHost_pending run.bridge uri
  | _ => rfl

/-- Whatever a command does at once, it enters its requests and moves nothing else. -/
theorem unmoved_taking (run : Run) (command : BridgeCommand) :
    (run.entered (run.taking command).bridge.router).Unmoved (run.taking command) := by
  rw [router_taking]
  have unmoved := (run.bridge.unmoved_taking command).trans
    (.hear _ (run.publication? (.command command)))
  exact .setBridge unmoved

theorem turn_receiveDiagnostics (run : Run) (task : Nat) (uri : String) (published : Value) :
    Turn task .other (run.setBridge (run.bridge.hear
        (run.bridge.store.bringPublicationBack uri published).toOption.join))
      (run.receiveDiagnostics task uri published) := by
  unfold Run.receiveDiagnostics Bridge.receiveDiagnostics
  rcases run.bridge.store.bringPublicationBack uri published with fault | _ | publication
  all_goals exact .finish _ task _

theorem turn_receive (run : Run) (task : Nat) (language : String) (message : Inbound) :
    Turn task .other (run.setBridge (run.bridge.hear
        (run.publication? (.command (.receive language message)))))
      (run.receive task language message) := by
  unfold receive
  cases known : run.bridge.speakers.get? language with
  | none => cases message <;> simpa [publication?, known] using .finish _ task _
  | some server =>
    cases message with
    | diagnostics uri published =>
      simp only [publication?, known, Option.bind_some]
      cases published.filledElements with
      | error fault => exact .finish _ task _
      | ok items => exact run.turn_receiveDiagnostics task uri (.list items)
    | _ => exact turn_serve (.receive run server _) (Link.receive_serves _ _)

/-- A command enters its requests and then takes its turn with them. -/
theorem turn_enter (run : Run) {command : BridgeCommand} (running : command ≠ .shutdown) :
    Turn run.nextTask (run.errandOf command) (run.taking command) (run.enter command) := by
  let entering : Run := { run with nextTask := run.nextTask + 1 }
  cases command with
  | openHost uri text languageId => exact turn_syncHost run.nextTask uri _ _
  | editHost uri text changed => exact turn_syncHost run.nextTask uri _ _
  | closeHost uri => exact .finish _ run.nextTask _
  | dispatch uri position method params =>
    simp only [enter, begin, dispatch, errandOf, issued]
    split <;> rename_i isRouted <;> rw [isRouted]
    · exact .ends trivial (.finish _ rfl _)
    · exact .ends trivial (.finish _ rfl _)
    · exact turn_send _ run.nextTask _ .direct none
  | dispatchAll uri method params =>
    simp only [enter, begin, dispatchAll, errandOf, issued]
    split <;> rename_i isRouted <;> rw [isRouted]
    · exact .ends trivial (.finish _ rfl _)
    · exact .ends trivial (.finish _ rfl _)
    · exact turn_fanOut _ run.nextTask method _
  | resolve item =>
    simp only [enter, begin, resolveItem, errandOf, issued]
    split <;> rename_i isRouted <;> rw [isRouted]
    · exact .ends trivial (.finish _ rfl _)
    · exact .ends trivial (.finish _ rfl _)
    · exact turn_send _ run.nextTask _ (.resolving item) none
  | search query => exact turn_search _ run.nextTask query
  | ensure language => exact turn_ensureOnly _ run.nextTask language
  | updateSettings settings => exact .move (.settings _ settings) (.finish _ run.nextTask _)
  | shutdown => contradiction
  | receive language message => exact entering.turn_receive run.nextTask language message
  | diagnostics uri published =>
    exact entering.turn_receiveDiagnostics run.nextTask uri published

end Run

end LanguageBridge
