import LanguageBridge.Proofs.Bridge.Resolving

namespace LanguageBridge

/-! What is shown about a host: warnings about its regions, and then the diagnostics that child servers
have published for its documents. Of each language the latest publication counts. -/

/-! ### What changes what is held -/

namespace Bridge

/-- What is held of one language in a host. -/
def held? (bridge : Bridge) (host language : String) : Option (List Diagnostic) :=
  (bridge.diagnostics.get? host).bind (·.get? language)

theorem diagnostics_closeHost (bridge : Bridge) (host : String) :
    (bridge.closeHost host).1.diagnostics =
      if (bridge.closeHost host).2.isOk then bridge.diagnostics.erase host
      else bridge.diagnostics := by
  obtain ⟨_, closed, _⟩ := closeDocuments_frame host (bridge.store.documents host)
    { bridge with store := bridge.store.close host }
  have told (closed : Bridge) : closed.Rests (closed.announce host []) :=
    .announce fun _ => Or.inl rfl
  rcases isClosed : closeDocuments host (bridge.store.documents host)
    { bridge with store := bridge.store.close host } with ⟨after, fault | _⟩
  · rw [isClosed] at closed
    simpa [closeHost, isClosed, Except.isOk, Except.toBool] using closed
  · rw [isClosed] at closed
    simpa [closeHost, isClosed, (told _).diagnostics, Except.isOk, Except.toBool] using
      congrArg (Table.erase · host) closed

theorem closeHost_ok_of_named {bridge : Bridge} {host : String}
    (named : ∀ document ∈ bridge.store.documents host, bridge.current.contains document.language →
      host ≠ "" ∧ document.language ≠ "") : (bridge.closeHost host).2 = .ok () := by
  have ended := closeDocuments_ok { bridge with store := bridge.store.close host } named
  unfold closeHost
  dsimp only
  split
  · rename_i isClosed
    rw [isClosed] at ended
    contradiction
  · rfl

end Bridge

namespace Run

/-- Apart from closed hosts, nothing but publications changes what is held. -/
theorem diagnostics_act (run : Run) {event : BridgeEvent}
    (kept : ∀ uri, event ≠ .command (.closeHost uri)) :
    (run.act event).bridge.diagnostics = run.bridge.holding (run.publication? event) := by
  rw [(run.apart_nothing event).diagnostics]
  cases event with
  | command command =>
    cases command with
    | closeHost uri => exact absurd rfl (kept uri)
    | _ => exact (Bridge.hear_rests _ _).diagnostics
  | _ => rfl

/-! ### What was heard of a host -/

/-- The language that an event publishes something for in an open host, and what it is. -/
def heard (run : Run) (host : String) (event : BridgeEvent) : List (String × List Diagnostic) :=
  match run.publication? event with
  | some (source, mapped) =>
    if source.host = host ∧ run.bridge.store.contains host then [(source.language, mapped)] else []
  | none => []

/-- All that was heard of a host since it was opened, oldest first. -/
def sinceOpened (start : Run) (host : String) : List BridgeEvent → List (String × List Diagnostic)
  | [] => []
  | event :: past =>
    if (start.replay past).bridge.store.contains host then
      start.sinceOpened host past ++ (start.replay past).heard host event
    else []

/-- All that was heard of a host since it was forgotten, oldest first. -/
def sinceForgotten (start : Run) (host : String) : List BridgeEvent → List (String × List Diagnostic)
  | [] => []
  | event :: past =>
    if (start.replay past).forgets host event then []
    else start.sinceForgotten host past ++ (start.replay past).heard host event

/-- What was heard last of each language. The languages come in the order in which they were first
heard of. -/
def latestOfEach (heard : List (String × List Diagnostic)) : List Diagnostic :=
  (heard.map Prod.fst).eraseDups.flatMap fun language => (heard.reverse.lookup language).getD []

theorem putAll_eq_latest (heard : List (String × List Diagnostic)) :
    ({} : Table String (List Diagnostic)).putAll ⟨heard⟩ =
      ⟨(heard.map Prod.fst).eraseDups.map fun language =>
        (language, (heard.reverse.lookup language).getD [])⟩ := by
  induction heard using List.reverseRecOn with
  | nil => rfl
  | append_singleton heard last ih =>
    obtain ⟨spoken, mapped⟩ := last
    have step : ({} : Table String (List Diagnostic)).putAll ⟨heard ++ [(spoken, mapped)]⟩ =
        (({} : Table String (List Diagnostic)).putAll ⟨heard⟩).put spoken mapped := by
      simp only [Table.putAll, List.foldl_append, List.foldl_cons, List.foldl_nil]
    rw [step, ih, Table.put_tabulate, List.map_append, List.map_singleton, eraseDups_snoc]
    congr 1
    refine List.map_congr_left fun language _ => ?_
    by_cases same : language = spoken
    · simp [same]
    · simp [same, List.lookup_cons, beq_false_of_ne same]

theorem values_putAll (heard : List (String × List Diagnostic)) :
    (({} : Table String (List Diagnostic)).putAll ⟨heard⟩).values.flatten = latestOfEach heard := by
  rw [putAll_eq_latest, latestOfEach, Table.values, List.map_map, List.flatMap_def]
  rfl

theorem not_forgets {event : BridgeEvent} (kept : ∀ uri, event ≠ .command (.closeHost uri))
    (run : Run) (host : String) : run.forgets host event = false := by
  unfold forgets
  split
  · exact absurd rfl (kept _)
  · rfl

theorem heldOf_act (run : Run) (event : BridgeEvent) (host : String) :
    (run.act event).bridge.heldOf host =
      if run.forgets host event then {}
      else (run.bridge.heldOf host).putAll ⟨run.heard host event⟩ := by
  by_cases closing : ∃ uri, event = .command (.closeHost uri)
  · obtain ⟨uri, rfl⟩ := closing
    have closed : (run.act (.command (.closeHost uri))).bridge.diagnostics =
        (run.bridge.closeHost uri).1.diagnostics := rfl
    have forgotten : run.forgets host (.command (.closeHost uri)) =
        (decide (uri = host) && (run.bridge.closeHost uri).2.isOk) := rfl
    rw [Bridge.heldOf, closed, Bridge.diagnostics_closeHost, forgotten]
    by_cases same : uri = host
    · cases (run.bridge.closeHost uri).2.isOk <;>
        simp [same, heard, publication?, Table.get?_erase, Table.putAll, Bridge.heldOf]
    · cases (run.bridge.closeHost uri).2.isOk <;>
        simp [same, Ne.symm same, heard, publication?, Table.get?_erase, Table.putAll, Bridge.heldOf]
  · have kept : ∀ uri, event ≠ .command (.closeHost uri) := fun uri same => closing ⟨uri, same⟩
    rw [not_forgets kept, Bridge.heldOf, run.diagnostics_act kept, heard]
    rcases run.publication? event with _ | ⟨source, mapped⟩
    · rfl
    · by_cases same : source.host = host
      · by_cases tracked : run.bridge.store.contains host <;>
          simp [Bridge.holding, same, tracked, Table.get?_put, Table.putAll, Bridge.heldOf]
      · by_cases tracked : run.bridge.store.contains source.host <;>
          simp [Bridge.holding, same, Ne.symm same, tracked, Table.get?_put, Table.putAll,
            Bridge.heldOf]

theorem heldOf_eq {start run : Run} {events : List BridgeEvent} {allowed : Run → BridgeEvent → Prop}
    (nothing : start.bridge.diagnostics = {}) (reached : Reached act allowed start events run)
    (host : String) :
    run.bridge.heldOf host =
      ({} : Table String (List Diagnostic)).putAll ⟨start.sinceForgotten host events⟩ := by
  induction reached with
  | start =>
    rw [Bridge.heldOf, nothing]
    rfl
  | step before event permitted ih =>
    rw [heldOf_act, sinceForgotten, replay_of_reached before, ih]
    split
    · rfl
    · simp only [Table.putAll, List.foldl_append]

/-! ### Hosts that are closed for good -/

/-- When the host is closed, none of its documents is without a name, as far as there are child
servers for them. -/
def ClosesThrough (host : String) (run : Run) : BridgeEvent → Prop
  | .command (.closeHost uri) =>
    uri = host → ∀ document ∈ run.bridge.store.documents host,
      run.bridge.current.contains document.language → host ≠ "" ∧ document.language ≠ ""
  | _ => True

theorem contains_putHost {store : Store} {host : String} (tracked : store.contains host) (uri : String)
    (entry : Host) : (store.putHost uri entry).contains host := by
  rw [Store.contains, Store.putHost, Table.contains, Table.get?_put]
  split
  · rfl
  · exact tracked

/-- A host that is open stays open unless it is closed. -/
theorem contains_act {run : Run} {event : BridgeEvent} {host : String}
    (tracked : run.bridge.store.contains host) (kept : event ≠ .command (.closeHost host)) :
    (run.act event).bridge.store.contains host := by
  rw [(run.apart_nothing event).store]
  cases event with
  | command command =>
    rw [beginning, store_taking]
    cases command with
    | openHost uri text languageId =>
      simp only [Bridge.taking, Store.openHost_eq]
      exact contains_putHost tracked uri _
    | editHost uri text changed =>
      obtain ⟨entry, isStore⟩ := run.bridge.store.exists_update uri text changed
      simp only [Bridge.taking, isStore]
      exact contains_putHost tracked uri entry
    | closeHost uri =>
      have other : host ≠ uri := fun same => kept (same ▸ rfl)
      simp only [Bridge.taking, (run.bridge.closeHost_rests uri).1]
      rw [Store.contains, Store.close, Table.contains, Table.get?_erase, if_neg other]
      exact tracked
    | _ => exact tracked
  | _ => exact tracked

theorem not_contains_of_forgets {run : Run} {event : BridgeEvent} {host : String}
    (forgotten : run.forgets host event) : (run.act event).bridge.store.contains host = false := by
  unfold forgets at forgotten
  split at forgotten
  · rename_i uri
    obtain ⟨same, -⟩ := Bool.and_eq_true_iff.mp forgotten
    rw [decide_eq_true_eq] at same
    rw [(run.apart_nothing _).store, beginning, store_taking]
    simp only [Bridge.taking, (run.bridge.closeHost_rests uri).1]
    rw [Store.contains, Store.close, Table.contains, Table.get?_erase, if_pos same.symm]
    rfl
  · contradiction

theorem forgets_of_closesThrough {run : Run} {host : String}
    (through : ClosesThrough host run (.command (.closeHost host))) :
    run.forgets host (.command (.closeHost host)) := by
  have closed := Bridge.closeHost_ok_of_named (through rfl)
  simp [forgets, closed, Except.isOk, Except.toBool]

/-- If the host is always forgotten when it is closed, then what is known of an open host was heard
since it was opened, and nothing is known of a host that is not open. -/
theorem sinceForgotten_eq {start run : Run} {events : List BridgeEvent} {host : String}
    (reached : Reached act (ClosesThrough host) start events run) :
    start.sinceForgotten host events =
      if run.bridge.store.contains host then start.sinceOpened host events else [] := by
  induction reached with
  | start => simp [sinceForgotten, sinceOpened]
  | @step past before earlier event through ih =>
    rw [sinceForgotten, sinceOpened, replay_of_reached earlier, ih]
    by_cases tracked : before.bridge.store.contains host
    · by_cases closing : event = .command (.closeHost host)
      · subst closing
        have forgotten := forgets_of_closesThrough through
        simp [forgotten, not_contains_of_forgets forgotten]
      · have stays := contains_act tracked closing
        have remembered : ¬ before.forgets host event := by
          intro forgotten
          simp [not_contains_of_forgets forgotten] at stays
        simp [tracked, stays, remembered]
    · have unheard : before.heard host event = [] := by
        unfold heard
        split
        · simp [tracked]
        · rfl
      simp [tracked, unheard]

/-! ### The law -/

/-- The warnings about the regions of a host as its text stands. -/
def regionWarnings (settings : Store) (host : Host) : List Diagnostic :=
  (settings.extract host.text host.languageId).malformed.map MalformedRegion.diagnostic

section Shown

variable {config : Config} {padding : Padding} {names : LanguageNames} {rules : Option (List Rule)}
  {root : Option String} {publishes : Bool} {editor : Editor} {events : List BridgeEvent}

theorem diagnosticsOf_eq {start run : Run}
    (begins : start = fresh config padding names rules root publishes editor)
    (reached : Reached act Anything start events run) {host : String} {entry : Host}
    (tracked : run.bridge.store.hosts.get? host = some entry) :
    run.bridge.diagnosticsOf host =
      regionWarnings start.bridge.store entry ++ latestOfEach (start.sinceForgotten host events) := by
  subst begins
  obtain ⟨history, stored⟩ := reached_store reached
  have current := Store.reached_current stored rfl tracked
  have held := heldOf_eq rfl reached host
  rw [Bridge.diagnosticsOf, ← values_putAll, ← held, regionWarnings]
  simp only [Store.malformed, tracked, Option.map_some, Option.getD_some, current.extraction]
  rfl

theorem held?_act {run : Run} {event : BridgeEvent} {source : Alias} {mapped : List Diagnostic}
    (published : run.publication? event = some (source, mapped)) {host language : String}
    (other : (host, language) ≠ (source.host, source.language)) :
    (run.act event).bridge.held? host language = run.bridge.held? host language := by
  have kept : ∀ uri, event ≠ .command (.closeHost uri) := by
    rintro uri rfl
    contradiction
  rw [Bridge.held?, run.diagnostics_act kept, published, Bridge.holding]
  split
  · rw [Table.get?_put]
    by_cases same : host = source.host
    · subst same
      have spoken : language ≠ source.language := fun same => other (same ▸ rfl)
      rw [if_pos rfl, Option.bind_some, Table.get?_put, if_neg spoken, Bridge.heldOf, Bridge.held?]
      cases run.bridge.diagnostics.get? source.host <;> rfl
    · rw [if_neg same, Bridge.held?]
  · rfl

/-- An open host shows the warnings about its regions, and then, language by language, what was heard
last since the host was forgotten. That is what was heard last since it was opened, as long as none of
its documents is without a name when it is closed. What is heard of one language in one host changes
nothing of another. -/
theorem diagnosticsOf_latest_of_each {start run : Run}
    (begins : start = fresh config padding names rules root publishes editor)
    (reached : Reached act Anything start events run) {host : String} {entry : Host}
    (tracked : run.bridge.store.hosts.get? host = some entry) :
    run.bridge.diagnosticsOf host =
        regionWarnings start.bridge.store entry ++
          latestOfEach (start.sinceForgotten host events) ∧
      (Reached act (ClosesThrough host) start events run →
        run.bridge.diagnosticsOf host =
          regionWarnings start.bridge.store entry ++
            latestOfEach (start.sinceOpened host events)) ∧
      ∀ event source mapped, run.publication? event = some (source, mapped) →
        ∀ other language, (other, language) ≠ (source.host, source.language) →
          (run.act event).bridge.held? other language = run.bridge.held? other language := by
  have shown := diagnosticsOf_eq begins reached tracked
  refine ⟨shown, fun through => ?_, fun event source mapped published other language => ?_⟩
  · have isOpen : run.bridge.store.contains host := by
      simp [Store.contains, Table.contains, tracked]
    rw [shown, sinceForgotten_eq through, if_pos isOpen]
  · exact held?_act published

end Shown

/-! ### A host that is opened again -/

def noServers : Run :=
  fresh { servers := {} } .compact .standard none none true .absent

def complaint (line : Int) (text : String) : Diagnostic :=
  { range := ⟨⟨line, 0⟩, ⟨line, 1⟩⟩, rest := [("message", .str text)] }

/-- A child server finds fault with the first line of its document. -/
def complain (uri text : String) : BridgeEvent :=
  .command (.diagnostics uri (.list [(complaint 0 text).toValue]))

def openedBefore : List BridgeEvent :=
  [complain "otter://h/python" "before",
    .command (.openHost "h" "```python\na\n```" (some "markdown"))]

/-- The host is opened again, now with two languages and a region that has no end. -/
def openedAgain : List BridgeEvent :=
  .command (.openHost "h" "```python\nx\n```\n```json\n1\n```\n```r" (some "markdown")) ::
    .command (.closeHost "h") :: openedBefore

/-- One language is heard of twice, the second time under an alias that is spelt in another way. -/
def heardAgain : List BridgeEvent :=
  complain "otter://%68/python" "last" :: complain "otter://h/json" "once" ::
    complain "otter://h/python" "first" :: openedAgain

theorem reached_append {allowed : Run → BridgeEvent → Prop} {start : Run} {past : List BridgeEvent}
    (before : Reached act allowed start past (start.replay past)) (later : List BridgeEvent)
    (permitted : ∀ event ∈ later, ∀ run, allowed run event) :
    Reached act allowed start (later ++ past) (start.replay (later ++ past)) := by
  induction later with
  | nil => exact before
  | cons event later ih =>
    obtain ⟨first, others⟩ := List.forall_mem_cons.mp permitted
    exact .step (ih others) event (first _)

theorem heardAgain_reached :
    Reached act (ClosesThrough "h") noServers heardAgain (noServers.replay heardAgain) := by
  have opened : Reached act (ClosesThrough "h") noServers openedBefore
      (noServers.replay openedBefore) := .step (.step .start _ trivial) _ trivial
  have alone : (noServers.replay openedBefore).bridge.current = {} := by cbv
  have closed : Reached act (ClosesThrough "h") noServers (.command (.closeHost "h") :: openedBefore)
      (noServers.replay (.command (.closeHost "h") :: openedBefore)) := opened.step _ (by
    intro _ document _ known
    rw [alone] at known
    contradiction)
  exact reached_append closed (_ :: _ :: _ :: [_])
    (by simp [complain, ClosesThrough])

theorem sinceOpened_heardAgain :
    noServers.sinceOpened "h" heardAgain =
      [("python", [complaint 1 "first"]), ("json", [complaint 4 "once"]),
        ("python", [complaint 1 "last"])] := by
  have closed : (noServers.replay (.command (.closeHost "h") :: openedBefore)).bridge.store.contains
      "h" = false := by cbv
  have opened : (noServers.replay openedAgain).bridge.store.contains "h" := by cbv
  have openedStill : (noServers.replay (complain "otter://h/python" "first" ::
      openedAgain)).bridge.store.contains "h" := contains_act opened (by simp [complain])
  have openedYet : (noServers.replay (complain "otter://h/json" "once" ::
      complain "otter://h/python" "first" :: openedAgain)).bridge.store.contains "h" :=
    contains_act openedStill (by simp [complain])
  have nothing : noServers.sinceOpened "h" openedAgain = [] := by
    rw [openedAgain, sinceOpened, closed]
    rfl
  have first : (noServers.replay openedAgain).heard "h" (complain "otter://h/python" "first") =
      [("python", [complaint 1 "first"])] := by cbv
  have once : (noServers.replay (complain "otter://h/python" "first" :: openedAgain)).heard "h"
      (complain "otter://h/json" "once") = [("json", [complaint 4 "once"])] := by cbv
  have last : (noServers.replay (complain "otter://h/json" "once" ::
      complain "otter://h/python" "first" :: openedAgain)).heard "h"
      (complain "otter://%68/python" "last") = [("python", [complaint 1 "last"])] := by cbv
  rw [heardAgain, sinceOpened, if_pos openedYet, sinceOpened, if_pos openedStill, sinceOpened,
    if_pos opened, nothing, first, once, last]
  rfl

/-- Of what was heard before the host was closed nothing is left. -/
theorem diagnosticsOf_latest_of_heard_again :
    ∃ entry, (noServers.replay heardAgain).bridge.store.hosts.get? "h" = some entry ∧
      entry.text = "```python\nx\n```\n```json\n1\n```\n```r" ∧
      (noServers.replay heardAgain).bridge.diagnosticsOf "h" =
        regionWarnings noServers.bridge.store entry ++
          [complaint 1 "last", complaint 4 "once"] := by
  have text : ((noServers.replay heardAgain).bridge.store.hosts.get? "h").map Host.text =
    some "```python\nx\n```\n```json\n1\n```\n```r" := by cbv
  obtain ⟨entry, tracked, isText⟩ := Option.map_eq_some_iff.mp text
  have begins : noServers = fresh { servers := {} } .compact .standard none none true .absent := rfl
  have shown := (diagnosticsOf_latest_of_each begins (reached_replay noServers heardAgain)
    tracked).2.1 heardAgain_reached
  rw [sinceOpened_heardAgain] at shown
  exact ⟨entry, tracked, isText, shown⟩

/-! ### A host that could not be closed -/

/-- A table of names may give a language the empty name, and there may be a command for it. -/
def namelessServer : Run :=
  fresh { servers := ⟨[("", ["x"])]⟩ } .compact ⟨[("x", "")]⟩ none none true .absent

/-- The child server of the language without a name does not start, but there is one. Its document has
no alias, so that the host is closed and not forgotten. -/
def closedInVain : List BridgeEvent :=
  .command (.closeHost "h") :: complain "otter://h/python" "old" ::
    (List.replicate 4 .step ++
      [.command (.openHost "h" "```python\na\n```\n```x\nb\n```" (some "markdown")),
        .prepare (.child "") .spawn [.failure "no"]])

def openedAfter : List BridgeEvent :=
  .command (.openHost "h" "```python\nc\n```" (some "markdown")) :: closedInVain

set_option maxRecDepth 4000 in
/-- What was heard before the host was closed is shown when it is open again. -/
theorem old_diagnostics_shown_again :
    Reached act Anything namelessServer openedAfter (namelessServer.replay openedAfter) ∧
    (namelessServer.replay closedInVain).bridge.store.contains "h" = false ∧
    ∃ entry, (namelessServer.replay openedAfter).bridge.store.hosts.get? "h" = some entry ∧
      regionWarnings namelessServer.bridge.store entry ++
        latestOfEach (namelessServer.sinceOpened "h" openedAfter) = [] ∧
      (namelessServer.replay openedAfter).bridge.diagnosticsOf "h" = [complaint 1 "old"] := by
  have closed : (namelessServer.replay closedInVain).bridge.store.contains "h" = false := by cbv
  have nothing : namelessServer.sinceOpened "h" openedAfter = [] := by
    rw [openedAfter, sinceOpened, closed]
    rfl
  have warnings : ((namelessServer.replay openedAfter).bridge.store.hosts.get? "h").map
    (regionWarnings namelessServer.bridge.store) = some [] := by cbv
  obtain ⟨entry, tracked, unwarned⟩ := Option.map_eq_some_iff.mp warnings
  refine ⟨reached_replay _ _, closed, entry, tracked, ?_, by cbv⟩
  rw [unwarned, nothing]
  rfl

end Run

end LanguageBridge
