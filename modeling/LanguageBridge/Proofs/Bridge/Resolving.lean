import LanguageBridge.Proofs.Bridge.InFlight
import LanguageBridge.Proofs.Mapping.Names

namespace LanguageBridge

/-! Completion items on their way back to the child servers. In the editor an item names its host, and not
its language; the language is that of the last completion in the host. -/

/-! ### What is remembered of completions -/

namespace Router

theorem route_completionLanguages (router : Router) (store : Store) (host : String) (position : Position)
    (method : Method) (params : Params) :
    (router.route store host position method params).1.completionLanguages =
      match (router.route store host position method params).2 with
      | .ok (some context) =>
        if method = .completion then router.completionLanguages.put host context.language
        else router.completionLanguages
      | _ => router.completionLanguages := by
  simp only [route]
  split
  · rfl
  · split
    · rfl
    · split
      · rfl
      · rename_i aliasUri encoded
        split
        · rfl
        · simp only [record, Pending.record, encoded, rememberCompletion, Except.map]
          split <;> rfl

end Router

namespace Run

/-- The language of the completion that an event asks for in a host. -/
def completion? (run : Run) (host : String) : BridgeEvent → Option String
  | .command (.dispatch uri position method params) =>
    if method = .completion ∧ uri = host then
      (run.bridge.router.route run.bridge.store uri position method params).2.toOption.join.map
        Context.language
    else none
  | _ => none

/-- An event by which a host is closed and forgotten. -/
def forgets (run : Run) (host : String) : BridgeEvent → Bool
  | .command (.closeHost uri) => uri = host && (run.bridge.closeHost uri).2.isOk
  | _ => false

/-- The language of the last completion in a host since it was closed last. -/
def lastCompletion? (start : Run) (host : String) : List BridgeEvent → Option String
  | [] => none
  | event :: past =>
    if (start.replay past).forgets host event then none
    else (start.replay past).completion? host event <|> start.lastCompletion? host past

variable {run : Run}

theorem completionLanguages_act (run : Run) (event : BridgeEvent) (host : String) :
    (run.act event).bridge.router.completionLanguages.get? host =
      if run.forgets host event then none
      else run.completion? host event <|> run.bridge.router.completionLanguages.get? host := by
  have memory := congrArg Prod.fst (run.apart_nothing event).memory
  simp only [Router.memory] at memory
  rw [memory]
  cases event with
  | command command =>
    rw [beginning, router_taking]
    cases command with
    | dispatch uri position method params =>
      simp only [Bridge.taking, Router.route_completionLanguages, forgets, completion?]
      generalize (run.bridge.router.route run.bridge.store uri position method params).2 = result
      by_cases asks : method = .completion
      · rcases result with fault | _ | context
        · simp [Except.toOption]
        · simp [Except.toOption]
        · by_cases same : uri = host
          · simp [Except.toOption, asks, same, Table.get?_put]
          · simp [asks, same, Table.get?_put, Ne.symm same]
      · rcases result with fault | _ | context <;> simp [asks]
    | dispatchAll uri method params =>
      exact congrArg (fun memory => memory.1.get? host)
        (run.bridge.router.fanOut_memory run.bridge.store uri method params)
    | resolve item =>
      exact congrArg (fun memory => memory.1.get? host) (run.bridge.router.routeResolve_memory item)
    | closeHost uri =>
      have router := (run.bridge.closeHost_rests uri).2
      have forgotten : run.forgets host (.command (.closeHost uri)) =
        (decide (uri = host) && (run.bridge.closeHost uri).2.isOk) := rfl
      rw [forgotten]
      simp only [Bridge.taking, completion?]
      cases outcome : (run.bridge.closeHost uri).2 with
      | error fault =>
        rw [outcome] at router
        simp [router, Except.isOk, Except.toBool]
      | ok _ =>
        rw [outcome] at router
        rw [router]
        by_cases same : uri = host
        · simp [Except.isOk, Except.toBool, Router.forgetHost, Table.get?_erase, same]
        · simp [Router.forgetHost, Table.get?_erase, same, Ne.symm same]
    | _ => rfl
  | _ => rfl

theorem remembered_eq {start : Run} {events : List BridgeEvent} {allowed : Run → BridgeEvent → Prop}
    (nothing : start.bridge.router.completionLanguages = {})
    (reached : Reached act allowed start events run) (host : String) :
    run.bridge.router.completionLanguages.get? host = start.lastCompletion? host events := by
  induction reached with
  | start =>
    rw [nothing]
    rfl
  | step before event permitted ih =>
    rw [completionLanguages_act, lastCompletion?, replay_of_reached before, ih]

end Run

/-! ### Resolving -/

namespace Store

theorem mapCompletionItem_data {store : Store} {context : Context} {given returned : CompletionItem}
    (translated : store.mapCompletionItem context given = .ok returned) :
    returned.data = hostData given.data := by
  simp only [mapCompletionItem] at translated
  cases edited : mapOptional (store.mapCompletionEdit context) given.edit with
  | error fault => simp [edited, bind, Except.bind] at translated
  | ok edit =>
    cases added : mapOptional (store.mapEdits context.host context.language) given.additionalEdits with
    | error fault => simp [edited, added, bind, Except.bind] at translated
    | ok additional =>
      simp only [edited, added, bind, Except.bind, Except.ok.injEq] at translated
      rw [← translated]

end Store

namespace Router

variable {router : Router} {item : CompletionItem} {host language : String}

theorem routeResolve_eq {source : Alias} (origin : router.origin? item.data = some source) :
    (router.routeResolve (.item item)).2 =
      (Alias.encode source.host source.language).map fun aliasUri =>
        some ⟨router.pending.next, .completionResolve, source.host, aliasUri, source.language,
          (Params.item item).setDataUri aliasUri, .null⟩ := by
  simp only [routeResolve, Params.data, origin]
  cases encoded : Alias.encode source.host source.language with
  | error fault => rfl
  | ok aliasUri =>
    simp only [record, Pending.record, encoded]
    rfl

/-- An item that names a host goes where it is said to come from. -/
theorem routeResolve_iff (named : host ≠ "" ∧ language ≠ "")
    (here : item.data.lookUp? "uri" = some (.str host)) :
    (∃ routed, (router.routeResolve (.item item)).2 = .ok (some routed) ∧
      routed.host = host ∧ routed.language = language) ↔
    Alias.parse? host = none ∧ router.completionLanguages.get? host = some language := by
  have origin : router.origin? item.data = (Alias.parse? host).or
      ((router.completionLanguages.get? host).map fun language => ⟨host, language⟩) := by
    cases read : Alias.parse? host <;> simp [origin?, here, read]
  constructor
  · rintro ⟨routed, isRouted, isHost, isLanguage⟩
    cases source : router.origin? item.data with
    | none => simp [routeResolve, Params.data, source] at isRouted
    | some found =>
      rw [routeResolve_eq source] at isRouted
      obtain ⟨aliasUri, _, isContext⟩ := Except.map_eq_ok isRouted
      have isFound : found = ⟨host, language⟩ := by
        cases isContext
        cases isHost
        cases isLanguage
        rfl
      rw [origin] at source
      cases read : Alias.parse? host with
      -- A host that reads as an alias leads to the host in it, which is a shorter one.
      | some other =>
        rw [read] at source
        cases source
        exact absurd (congrArg Alias.host isFound) (Alias.host_ne_of_parse? read)
      | none =>
        rw [read] at source
        obtain ⟨remembered, isRemembered, isSource⟩ := Option.map_eq_some_iff.mp source
        rw [isFound] at isSource
        cases isSource
        exact ⟨rfl, isRemembered⟩
  · rintro ⟨unread, remembered⟩
    have source : router.origin? item.data = some ⟨host, language⟩ := by
      rw [origin, unread, remembered]
      rfl
    obtain ⟨aliasUri, encoded⟩ := Alias.exists_encode named.1 named.2
    rw [routeResolve_eq source, encoded]
    exact ⟨_, rfl, rfl, rfl⟩

end Router

namespace Run

section Resolving

variable {config : Config} {padding : Padding} {names : LanguageNames} {rules : Option (List Rule)}
  {root : Option String} {publishes : Bool} {editor : Editor} {events : List BridgeEvent}

/-- An item that came from a language in a host goes back there just if the host is no alias and the last
completion in it, since it was closed last, was one in this language. -/
theorem resolves_at_origin_iff
    (reached : Reached act Anything (fresh config padding names rules root publishes editor) events run)
    {store : Store} {context : Context} {given returned : CompletionItem} {uri host language : String}
    (produced : given.data.lookUp? "uri" = some (.str uri))
    (origin : Alias.parse? uri = some ⟨host, language⟩)
    (translated : store.mapCompletionItem context given = .ok returned) :
    (∃ routed, (run.bridge.router.routeResolve (.item returned)).2 = .ok (some routed) ∧
      routed.host = host ∧ routed.language = language) ↔
    Alias.parse? host = none ∧
      (fresh config padding names rules root publishes editor).lastCompletion? host events =
        some language := by
  have named := (Alias.parse?_eq_some.mp origin).1
  have here : returned.data.lookUp? "uri" = some (.str host) := by
    rw [Store.mapCompletionItem_data translated, lookUp?_hostData, produced]
    simp [Alias.hostOfValue, Alias.hostOf, origin]
  rw [Router.routeResolve_iff named here, remembered_eq rfl reached host]

end Resolving

/-! ### Two completions in one host -/

theorem reached_replay (start : Run) (events : List BridgeEvent) :
    Reached act Anything start events (start.replay events) := by
  induction events with
  | nil => exact .start
  | cons event past ih => exact .step ih event trivial

def completion (line : Int) : BridgeCommand :=
  .dispatch "h" ⟨line, 0⟩ .completion (.document
    { type := "CompletionParams", document := { type := "TextDocumentIdentifier", uri := "h" },
      position := some ⟨line, 0⟩ })

def itemNaming (uri : String) : CompletionItem :=
  { data := .map [("uri", .str uri)], rest := [("label", .str "x")] }

/-- A host with two languages is opened, and the child server of the first one has something to offer. -/
def offered : List BridgeEvent :=
  .command (completion 1) ::
    .prepare (.child "python") (.request .completion)
      [.result (.many [.completionItem (itemNaming "otter://h/python")])] ::
    List.replicate 12 .step ++
      [.command (.openHost "h" "```python\nx\n```\n```json\n1\n```" (some "markdown"))]

theorem offered_item_resolves_at_origin :
    (noHost.replay offered).finished.get? 3 =
      some (.ok (.answer (.many [.completionItem (itemNaming "h")]))) ∧
    ∃ routed, ((noHost.replay offered).bridge.router.routeResolve (.item (itemNaming "h"))).2 =
      .ok (some routed) ∧ routed.host = "h" ∧ routed.language = "python" := by
  have origin : Alias.parse? "otter://h/python" = some ⟨"h", "python"⟩ := by cbv
  have unread : Alias.parse? "h" = none := by cbv
  have last : noHost.lastCompletion? "h" offered = some "python" := by cbv
  have translated : (noHost.replay offered).bridge.store.mapCompletionItem default
      (itemNaming "otter://h/python") = .ok (itemNaming "h") := by cbv
  exact ⟨by cbv,
    (resolves_at_origin_iff (reached_replay noHost offered) rfl origin translated).mpr ⟨unread, last⟩⟩

/-- The editor asks for a completion in the other language before it has the item resolved. The host is
open all the time, but the item goes to the other child server. -/
theorem offered_item_resolved_elsewhere :
    Reached act Anything noHost (.command (completion 4) :: offered)
      (noHost.replay (.command (completion 4) :: offered)) ∧
    (noHost.replay (.command (completion 4) :: offered)).finished.get? 3 =
      some (.ok (.answer (.many [.completionItem (itemNaming "h")]))) ∧
    Alias.parse? "otter://h/python" = some ⟨"h", "python"⟩ ∧
    (noHost.replay offered).bridge.store.mapCompletionItem default
      (itemNaming "otter://h/python") = .ok (itemNaming "h") ∧
    ((noHost.replay (.command (completion 4) :: offered)).bridge.router.routeResolve
        (.item (itemNaming "h"))).2.toOption.join.map
      (fun routed => (routed.host, routed.language)) = some ("h", "json") :=
  ⟨reached_replay _ _, by cbv, by cbv, by cbv, by cbv⟩

end Run

end LanguageBridge
