import LanguageBridge.Proofs.Bridge.Accounts
import LanguageBridge.Proofs.Bridge.SingleStart
import LanguageBridge.Proofs.LanguageNames

namespace LanguageBridge

/-! The requests under way. Each gets a number of its own, is in the table as long as somebody waits
for a start or an answer on its behalf, and leaves the table once. -/

/-- The numbers of requests that are entered count up. -/
theorem Pending.Issues.numbers {issued : List Context} {before after : Pending}
    (issues : before.Issues issued after) :
    issued.map Context.id = List.range' before.next issued.length ∧
      after.next = before.next + issued.length := by
  induction issued generalizing before with
  | nil =>
    cases issues
    exact ⟨rfl, rfl⟩
  | cons context rest ih =>
    obtain ⟨numbers, next⟩ := ih issues.2
    refine ⟨?_, ?_⟩
    · rw [List.map_cons, numbers, issues.1, List.length_cons, List.range'_succ]
    · rw [next, List.length_cons, Nat.add_assoc, Nat.add_comm 1]

/-- No host without a name is opened or edited. -/
def BridgeEvent.NamesHost : BridgeEvent → Prop
  | .command (.openHost uri _ _) | .command (.editHost uri _ _) => uri ≠ ""
  | _ => True

namespace Run

/-- Anything but a shutdown, where hosts have names. No start is cancelled, and no task while members
of it are still to begin. -/
def Addressed (run : Run) (event : BridgeEvent) : Prop :=
  run.LetsStart event ∧ event.NamesHost ∧ run.SparesMembers event

variable {run after : Run} {task : Nat} {event : BridgeEvent}

theorem Addressed.wellNamed (addressed : run.Addressed event)
    (namesAll : run.bridge.store.NamesAll) : run.WellNamed event := by
  cases event with
  | command command =>
    cases command with
    | openHost uri text languageId => exact ⟨addressed.2.1, namesAll.openHost uri text languageId⟩
    | editHost uri text changed => exact ⟨addressed.2.1, namesAll.update uri text changed⟩
    | _ => trivial
  | _ => trivial

/-- Between two events the tasks are tidy, all hosts and languages have names, whoever is to begin is
wanted, and the table has the requests of tasks and jobs. -/
structure Afloat (run : Run) : Prop where
  tidy : run.Tidy
  orderly : run.bridge.Orderly
  namesAll : run.bridge.store.NamesAll
  wanted : run.Wanted
  balanced : run.Balanced

theorem Afloat.act (afloat : run.Afloat) (addressed : run.Addressed event) : (run.act event).Afloat := by
  have acted := acted_act afloat.orderly addressed.1
  have proceeded := proceeds afloat.orderly (addressed.wellNamed afloat.namesAll)
  refine ⟨acted.tidy afloat.tidy afloat.orderly addressed.1, proceeded.orderly, ?_,
    acted.wanted afloat.tidy afloat.wanted addressed.2.2,
    acted.balanced afloat.tidy afloat.balanced afloat.wanted⟩
  exact ⟨proceeded.settings.names ▸ afloat.namesAll.names,
    proceeded.settings.rules ▸ afloat.namesAll.rules⟩

/-! ### What comes and goes -/

/-- The requests that blocked tasks wait with, for a start or for an answer. -/
def waiting (run : Run) : List Context :=
  run.tasks.values.filterMap Activity.context?

/-- The requests that an event takes off the table. -/
def taken (run : Run) (event : BridgeEvent) : List Context :=
  (run.issued event ++ run.bridge.router.pending.contexts.values).filter fun context =>
    !(run.act event).bridge.router.pending.contains context.id

/-- Where a history leads to, the latest event first. -/
def replay (start : Run) : List BridgeEvent → Run
  | [] => start
  | event :: earlier => (start.replay earlier).act event

/-- All requests that were entered, in the order in which they were. -/
def issuedAlong (start : Run) : List BridgeEvent → List Context
  | [] => []
  | event :: earlier => start.issuedAlong earlier ++ (start.replay earlier).issued event

/-- All requests that were taken off the table. -/
def takenAlong (start : Run) : List BridgeEvent → List Context
  | [] => []
  | event :: earlier => start.takenAlong earlier ++ (start.replay earlier).taken event

theorem replay_of_reached {allowed : Run → BridgeEvent → Prop} {start : Run}
    {events : List BridgeEvent} (reached : Reached act allowed start events run) :
    start.replay events = run := by
  induction reached with
  | start => rfl
  | step before event permitted ih => rw [replay, ih]

theorem Afloat.waiting_perm (afloat : run.Afloat) (idle : run.idle = true) :
    run.bridge.router.pending.contexts.values.Perm run.waiting := by
  have ready : run.ready = [] := List.isEmpty_iff.mp idle
  refine afloat.balanced.held.trans (.of_eq ?_)
  rw [requests, carried, ready, List.filterMap_nil, List.append_nil, waiting, Table.values,
    List.filterMap_map]
  rfl

/-- Nothing is lost and nothing is left over. -/
theorem Afloat.conserves (afloat : run.Afloat) (addressed : run.Addressed event) :
    (run.issued event ++ run.bridge.router.pending.contexts.values).Perm
      (run.taken event ++ (run.act event).bridge.router.pending.contexts.values) := by
  obtain ⟨entered, issues, shrinks⟩ := (acted_act afloat.orderly addressed.1).pending afloat.tidy
  have present := afloat.balanced.perm afloat.balanced.held.symm
  exact (present.issue issues).partition shrinks

theorem Afloat.numbers (afloat : run.Afloat) (addressed : run.Addressed event) :
    (run.issued event).map Context.id =
        List.range' run.bridge.router.pending.next (run.issued event).length ∧
      (run.act event).bridge.router.pending.next =
        run.bridge.router.pending.next + (run.issued event).length := by
  obtain ⟨entered, issues, shrinks⟩ := (acted_act afloat.orderly addressed.1).pending afloat.tidy
  exact ⟨issues.numbers.1, shrinks.1.trans issues.numbers.2⟩

/-! ### Whole runs -/

/-- The books of a history: the numbers that were given out, and where the requests are. -/
structure Ledger (start : Run) (events : List BridgeEvent) (run : Run) : Prop where
  numbers : (start.issuedAlong events).map Context.id =
    List.range' 1 (start.issuedAlong events).length
  next : run.bridge.router.pending.next = 1 + (start.issuedAlong events).length
  conserved : (start.issuedAlong events).Perm
    (start.takenAlong events ++ run.bridge.router.pending.contexts.values)

theorem Ledger.act {start : Run} {events : List BridgeEvent} (ledger : Ledger start events run)
    (isRun : start.replay events = run) (afloat : run.Afloat) (addressed : run.Addressed event) :
    Ledger start (event :: events) (run.act event) := by
  obtain ⟨numbers, next⟩ := afloat.numbers addressed
  refine ⟨?_, ?_, ?_⟩
  · rw [issuedAlong, isRun, List.map_append, ledger.numbers, numbers, ledger.next, List.length_append,
      List.range'_append_1]
  · rw [next, ledger.next, issuedAlong, isRun, List.length_append, Nat.add_assoc]
  · rw [issuedAlong, takenAlong, isRun, List.append_assoc]
    have before : (start.issuedAlong events ++ run.issued event).Perm (start.takenAlong events ++
        (run.issued event ++ run.bridge.router.pending.contexts.values)) := by
      refine (ledger.conserved.append_right _).trans ?_
      rw [List.append_assoc]
      exact List.perm_append_comm.append_left _
    exact before.trans ((afloat.conserves addressed).append_left _)

section Reached

variable {config : Config} {padding : Padding} {names : LanguageNames} {rules : Option (List Rule)}
  {root : Option String} {publishes : Bool} {editor : Editor} {events : List BridgeEvent}

theorem reached_afloat (filled : names.Filled)
    (named : ∀ given, rules = some given → ∀ rule ∈ given, rule.Named)
    (reached : Reached act Addressed
      (fresh config padding names rules root publishes editor) events run) :
    run.Afloat ∧ Ledger (fresh config padding names rules root publishes editor) events run := by
  induction reached with
  | start =>
    exact ⟨⟨fresh_tidy config padding names rules root publishes editor,
      ⟨Store.fresh_proper padding names rules, fun _ _ => rfl⟩, ⟨filled, named⟩,
      fun _ queued => (nomatch queued), ⟨List.nodup_nil, fun _ member => (nomatch member), .nil⟩⟩, ⟨rfl, rfl, .nil⟩⟩
  | step before event addressed ih =>
    obtain ⟨afloat, ledger⟩ := ih
    exact ⟨afloat.act addressed, ledger.act (replay_of_reached before) afloat addressed⟩

/-- Whenever nothing goes on, the table has the requests that somebody waits with, and no others; the
requests that wait for a start wait for one that is under way. Numbers count up. Every request that
was entered is in the table or was taken off it once. -/
theorem pending_requests_in_flight (filled : names.Filled)
    (named : ∀ given, rules = some given → ∀ rule ∈ given, rule.Named)
    (reached : Reached act Addressed
      (fresh config padding names rules root publishes editor) events run) :
    let start := fresh config padding names rules root publishes editor
    (run.idle = true → run.bridge.router.pending.contexts.values.Perm run.waiting ∧
      ∀ task context server recipient,
        run.tasks.get? task = some (.requesting context server recipient) →
          run.AwaitsStart task context.language) ∧
    (∀ context ∈ run.waiting, ∃ router,
      run.bridge.router.complete context.id = .ok (context, router)) ∧
    (start.issuedAlong events).Pairwise (fun earlier later => earlier.id < later.id) ∧
    ((start.takenAlong events).map Context.id).Nodup ∧
    (start.issuedAlong events).Perm
      (start.takenAlong events ++ run.bridge.router.pending.contexts.values) := by
  intro start
  obtain ⟨afloat, ledger⟩ := reached_afloat filled named reached
  have ascending : (start.issuedAlong events).Pairwise fun earlier later => earlier.id < later.id := by
    rw [← List.pairwise_map, ledger.numbers]
    exact List.pairwise_lt_range'
  refine ⟨fun idle => ⟨afloat.waiting_perm idle, ?_⟩, fun context member => ?_, ascending, ?_,
    ledger.conserved⟩
  · intro task context server recipient held
    exact (afloat.tidy.awaits_when_idle idle held rfl).1
  · have inHand : context ∈ run.requests := by
      refine List.mem_append_left _ ?_
      rw [waiting, Table.values, List.filterMap_map] at member
      exact member
    simp only [Router.complete, Pending.consume, afloat.balanced.found inHand]
    exact ⟨_, rfl⟩
  · have once : ((start.issuedAlong events).map Context.id).Nodup := by
      rw [ledger.numbers]
      exact List.nodup_range'
    have split := (ledger.conserved.map Context.id).nodup_iff.mp once
    rw [List.map_append] at split
    exact (List.nodup_append.mp split).1

end Reached

/-! ### A request that waits

The second host asks all its languages for symbols. One child server answers, and the other one is
still starting. -/

def symbols (uri : String) : BridgeCommand :=
  .dispatchAll uri .documentSymbol (.document
    { type := "DocumentSymbolParams", document := { type := "TextDocumentIdentifier", uri := uri } })

def halfAnswered : Run :=
  (twoHosts.submit (symbols "b")).2

theorem AdmitsCalmly.addressed (admitted : run.AdmitsCalmly event) : run.Addressed event := by
  refine ⟨admitted.undisturbed.1, ?_, ?_⟩
  · cases event with
    | command command =>
      cases command with
      | openHost uri text languageId => exact admitted.1.1
      | editHost uri text changed => exact admitted.1.1
      | _ => trivial
    | _ => trivial
  · cases event with
    | cancel task => exact absurd rfl (admitted.2 task)
    | _ => trivial

theorem pending_requests_in_flight_of_slow_start :
    halfAnswered.idle = true ∧
    halfAnswered.waiting.map (fun context => (context.id, context.language)) = [(1, "json")] ∧
    halfAnswered.bridge.router.pending.contexts.values.Perm halfAnswered.waiting ∧
    ∃ events, Reached act Addressed noHost events halfAnswered ∧
      (noHost.issuedAlong events).Pairwise (fun earlier later => earlier.id < later.id) ∧
      ((noHost.takenAlong events).map Context.id).Nodup ∧
      (noHost.issuedAlong events).Perm
        (noHost.takenAlong events ++ halfAnswered.bridge.router.pending.contexts.values) := by
  have seen : (halfAnswered.idle,
      halfAnswered.waiting.map fun context => (context.id, context.language)) =
        (true, [(1, "json")]) := by cbv
  obtain ⟨idle, waits⟩ := Prod.mk.inj seen
  obtain ⟨_, calm⟩ := twoHosts_calm
  obtain ⟨events, reached⟩ := reached_submit (fun _ => ⟨trivial, trivial, trivial⟩)
    (calm.mono fun _ _ => AdmitsCalmly.addressed) (symbols "b") ⟨trivial, trivial, trivial⟩
  have noRules : ∀ given, (none : Option (List Rule)) = some given → ∀ rule ∈ given, rule.Named :=
    fun _ other => by cases other
  obtain ⟨whenIdle, _, ascending, once, conserved⟩ :=
    pending_requests_in_flight LanguageNames.standard_filled noRules reached
  exact ⟨idle, waits, (whenIdle idle).1, events, reached, ascending, once, conserved⟩

/-! ### A rule without a language

The chunks of one rule have a language, and those of the other one have none. A request to all languages is
entered for the first, and fails at the second. -/

def namelessRule : Run :=
  fresh { servers := ⟨[("python", ["p"])]⟩ } .compact .standard
    (some [.fence, .tag ⟨"", .literal "<x>".toList, .literal "</x>".toList⟩]) none true .absent

def leftBehind : Run :=
  ((namelessRule.submit (.openHost "h" "```python\na\n```\n<x>\nb\n</x>"
    (some "markdown"))).2.submit (symbols "h")).2

theorem request_left_behind :
    LanguageNames.standard.Filled ∧
    (∃ events, Reached act Addressed namelessRule events leftBehind) ∧
    leftBehind.idle = true ∧ leftBehind.waiting = [] ∧
    leftBehind.bridge.router.pending.contexts.values.map Context.language = ["python"] := by
  have seen : (leftBehind.idle, leftBehind.waiting,
      leftBehind.bridge.router.pending.contexts.values.map Context.language) =
        (true, [], ["python"]) := by cbv
  obtain ⟨idle, waits, left⟩ := Prod.mk.inj seen |>.imp_right Prod.mk.inj
  have steps : ∀ run : Run, run.Addressed .step := fun _ => ⟨trivial, trivial, trivial⟩
  obtain ⟨_, opened⟩ := reached_submit steps .start
    (.openHost "h" "```python\na\n```\n<x>\nb\n</x>" (some "markdown"))
    ⟨trivial, (by decide : "h" ≠ ""), trivial⟩
  obtain ⟨events, asked⟩ := reached_submit steps opened (symbols "h") ⟨trivial, trivial, trivial⟩
  exact ⟨LanguageNames.standard_filled, ⟨events, asked⟩, idle, waits, left⟩

end Run

end LanguageBridge
