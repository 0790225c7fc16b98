import LanguageBridge.Proofs.Bridge.Attempts

namespace LanguageBridge

/-! Each language has one child server, which is started once, and all who ask for it get the same
answer. -/

theorem Bridge.verdict?_of_ended {bridge : Bridge} {language : String} {server : Nat} {up : Bool}
    (found : bridge.current.get? language = some server)
    (ended : (bridge.link server).server.Ended bridge.root (.ok up)) :
    bridge.verdict? language = some (if up then some server else none) := by
  cases up with
  | true =>
    have started : (bridge.link server).server.started = true := ended
    simp [verdict?, found, started]
  | false =>
    obtain ⟨down, failed⟩ := ended
    simp [verdict?, found, down, failed]

theorem Bridge.Listed.nodup {bridge : Bridge} (listed : bridge.Listed) :
    (bridge.servers.map ChildServer.language).Nodup := by
  rw [List.nodup_iff_pairwise_ne, List.pairwise_iff_getElem]
  intro first second within isWithin ordered same
  rw [List.length_map] at within isWithin
  have held : ∀ server (isServer : server < bridge.servers.length),
      (bridge.link server).server = bridge.servers[server] := by
    intro server isServer
    simp [Bridge.link, isServer]
  simp only [List.getElem_map, ← held] at same
  have found := listed.listed first within
  rw [same, listed.listed second isWithin] at found
  exact Nat.ne_of_gt ordered (Option.some.inj found)

theorem Wire.StartedOnce.stays {before after : Wire} {language : String}
    (once : before.StartedOnce language) (adds : before.Adds (fun _ => True) after)
    (begun : after.startsOf language = [] ∨ after.StartedOnce language) :
    after.startsOf language = before.startsOf language := by
  obtain ⟨more, same, _⟩ := adds
  obtain ⟨client, name, command, isOnce⟩ := once
  have longer := Wire.startsOf_append same language
  rcases begun with none | ⟨_, _, _, again⟩
  · rw [none, isOnce] at longer
    contradiction
  · have lengths := congrArg List.length longer
    rw [again, isOnce] at lengths
    simp only [List.length_append, List.length_cons, List.length_nil] at lengths
    have nothing : more.filter (Effect.isStartOf language) = [] :=
      List.length_eq_zero_iff.mp (by omega)
    rw [longer, nothing, List.append_nil]

/-- A root that is not set, or a path from the top, can be told to child servers. -/
theorem Link.rootKnown_of_absolute {root : Option String}
    (rooted : ∀ path, root = some path → path = "" ∨ path.toList.head? = some '/') :
    Link.RootKnown root := by
  cases root with
  | none => exact ⟨none, rfl⟩
  | some path =>
    by_cases empty : path = ""
    · exact ⟨none, by simp [rootUri?, empty]⟩
    · have slash := (rooted path rfl).resolve_left empty
      have leads : ∃ lead, WorkspaceRoot.lead? path = some lead := by
        unfold WorkspaceRoot.lead?
        split
        · exact ⟨_, rfl⟩
        · exact ⟨_, rfl⟩
        · exact ⟨_, rfl⟩
        · rename_i other
          cases isPath : path.toList with
          | nil => simp [isPath] at slash
          | cons first rest =>
            simp only [isPath, List.head?_cons, Option.some.injEq] at slash
            exact absurd (slash ▸ isPath) (other rest)
      obtain ⟨lead, isLead⟩ := leads
      exact ⟨_, by simp only [rootUri?, if_neg empty, WorkspaceRoot.uri, isLead]; rfl⟩

namespace Run

variable {run middle after : Run} {task : Nat} {language : String} {server : Nat}

/-! ### Asking for a child server -/

/-- The child servers and their starts are the same; documents, requests and tasks may be others. -/
structure SameServers (run asking : Run) : Prop where
  config : asking.bridge.config = run.bridge.config
  current : asking.bridge.current = run.bridge.current
  standings : asking.bridge.standings = run.bridge.standings
  startUps : asking.startUps = run.startUps

theorem SameServers.verdict? {asking : Run} (same : run.SameServers asking) (language : String) :
    asking.bridge.verdict? language = run.bridge.verdict? language := by
  refine Bridge.verdict?_congr same.config (by rw [same.current]) fun server _ => ?_
  have standing := Bridge.standing_of_standings same.standings server
  exact ⟨congrArg Standing.started standing, congrArg Standing.failed standing⟩

/-- Whoever asks for the child server of a language, at whatever point of their work, gets what has
been decided. Until then they have to wait for a start that is under way. -/
def Honours (run : Run) (language : String) : Prop :=
  ∀ asking, run.SameServers asking →
    match run.bridge.verdict? language with
    | some (some server) => (asking.ensure language).2 = .ready server
    | some none => (asking.ensure language).2 = .absent
    | none => ∃ server, (asking.ensure language).2 = .starting server ∧
        (asking.ensure language).1.bridge.current.get? language = some server ∧
        ∃ startUp, (asking.ensure language).1.startUps.get? language = some startUp ∧
          startUp.settled = none

/-- A start on record belongs to the server there is, and has left its mark if it has ended. -/
def StartsKnown (run : Run) (language : String) : Prop :=
  ∀ startUp, run.startUps.get? language = some startUp →
    ∃ server, run.bridge.current.get? language = some server ∧
      (startUp.settled ≠ none → (run.bridge.link server).server.started = true ∨
        (run.bridge.link server).server.failed = true)

theorem Launching.startsKnown (launching : Launching [] run)
    (known : Link.RootKnown run.bridge.root) (language : String) : run.StartsKnown language := by
  intro startUp underWay
  have onRecord : run.starts.get? language = some startUp.state := by
    rw [starts_get?, underWay, Option.map_some]
  refine ⟨startUp.server, launching.server language _ onRecord, fun settled => ?_⟩
  obtain ⟨outcome, isSettled⟩ := Option.ne_none_iff_exists'.mp settled
  have isState : startUp.state = (startUp.server, some outcome) := by
    rw [StartUp.state, isSettled]
  exact (launching.settled language startUp.server outcome (isState ▸ onRecord)).marked known

theorem StartsKnown.asked {asking : Run} (known : run.StartsKnown language)
    (same : run.SameServers asking) : asking.StartsKnown language := by
  intro startUp underWay
  obtain ⟨server, found, marked⟩ := known startUp (same.startUps ▸ underWay)
  have standing := Bridge.standing_of_standings same.standings server
  exact ⟨server, same.current ▸ found, fun settled => (marked settled).imp
    (congrArg Standing.started standing).trans (congrArg Standing.failed standing).trans⟩

theorem StartsKnown.honours (startsKnown : run.StartsKnown language) : run.Honours language := by
  intro asking same
  have known := startsKnown.asked same
  rw [← same.verdict?]
  have tells := asking.ensure_tells language
  have starting : (∃ server, (asking.ensure language).2 = .starting server) →
      ∃ server, (asking.ensure language).2 = .starting server ∧
        (asking.ensure language).1.bridge.current.get? language = some server ∧
        ∃ startUp, (asking.ensure language).1.startUps.get? language = some startUp ∧
          startUp.settled = none := by
    rintro ⟨server, isStarting⟩
    rw [isStarting] at tells
    obtain ⟨current, _, underWay⟩ := tells
    exact ⟨server, isStarting, current, underWay⟩
  cases found : asking.bridge.current.get? language with
  | none =>
    cases configured : asking.bridge.config.commandFor? language with
    | none => simp [Bridge.verdict?, ensure, Bridge.findServer, found, configured]
    | some command =>
      rw [show asking.bridge.verdict? language = none by simp [Bridge.verdict?, found, configured]]
      refine starting ⟨asking.bridge.servers.length, ?_⟩
      have unstarted : asking.startUps.get? language = none := by
        cases underWay : asking.startUps.get? language with
        | none => rfl
        | some startUp =>
          obtain ⟨server, current, _⟩ := known startUp underWay
          rw [found] at current
          contradiction
      simp [ensure, Bridge.findServer, found, configured, setBridge, Bridge.addServer_link_new,
        unstarted]
  | some server =>
    cases up : (asking.bridge.link server).server.started with
    | true => simp [Bridge.verdict?, ensure, Bridge.findServer, found, setBridge, up]
    | false =>
      cases failed : (asking.bridge.link server).server.failed with
      | true => simp [Bridge.verdict?, ensure, Bridge.findServer, found, setBridge, up, failed]
      | false =>
        rw [Bridge.verdict?_fresh found up failed]
        refine starting ⟨server, ?_⟩
        cases underWay : asking.startUps.get? language with
        | none => simp [ensure, Bridge.findServer, found, setBridge, up, failed, underWay]
        | some startUp =>
          have unsettled : startUp.settled = none := by
            by_contra settled
            obtain ⟨other, isFound, marked⟩ := known startUp underWay
            cases found.symm.trans isFound
            simp [up, failed, settled] at marked
          simp [ensure, Bridge.findServer, found, setBridge, up, failed, underWay, unsettled]

/-! ### Those who ask and wait -/

/-- Whoever waited for a start learns what has been decided, about the server there is. -/
def LearnsVerdict (run : Run) (activity : Activity) (outcome : Except Fault Bool) : Prop :=
  ∃ language server up, activity.awaited? = some language ∧ outcome = .ok up ∧
    run.bridge.current.get? language = some server ∧
    run.bridge.verdict? language = some (if up then some server else none) ∧
    ∀ context asked recipient, activity = .requesting context asked recipient → asked = server

theorem Tidy.learns (tidy : run.Tidy) (known : Link.RootKnown run.bridge.root)
    {outcome : Except Fault Bool} {activity : Activity} (told : run.Told task outcome)
    (held : run.tasks.get? task = some activity) : run.LearnsVerdict activity outcome := by
  obtain ⟨language, server, awaited, found, ended⟩ := tidy.attended.told task outcome activity told held
  have fits := tidy.launching.tasks task activity held
  rcases outcome with fault | up
  · exact absurd known ended
  · refine ⟨language, server, up, awaited, rfl, found, Bridge.verdict?_of_ended found ended, ?_⟩
    rintro context asked recipient rfl
    cases awaited
    exact Option.some.inj (fits.2.symm.trans found)

/-- While nothing goes on, whoever waits for a start is on its list, and the start is in the hands of
a task that waits for the child server. -/
theorem Tidy.awaits_when_idle (tidy : run.Tidy) (idle : run.idle = true) {activity : Activity}
    (held : run.tasks.get? task = some activity) (awaited : activity.awaited? = some language) :
    run.AwaitsStart task language ∧
      ∃ starter server stage, run.tasks.get? starter = some (.launching language server stage) := by
  have ready : run.ready = [] := List.isEmpty_iff.mp idle
  have awaits : run.AwaitsStart task language := by
    rcases tidy.attended.heard task activity language held awaited with
      awaits | ⟨outcome, told⟩ | cancelled
    · exact awaits
    · rw [Told, ready] at told
      simp at told
    · rw [ready] at cancelled
      contradiction
  refine ⟨awaits, ?_⟩
  obtain ⟨startUp, found, unsettled, _⟩ := awaits
  have starting : language ∈ run.starting := (mem_starting tidy.launching.distinct).mpr
    ⟨startUp.server, by rw [starts_get?, found, Option.map_some, StartUp.state, unsettled]⟩
  have launched := tidy.launching.launches.mem_iff.mpr starting
  simp only [List.nil_append, launches, carried, ready, List.filterMap_nil, List.append_nil] at launched
  obtain ⟨⟨starter, other⟩, member, isLaunched⟩ := List.mem_filterMap.mp launched
  cases other with
  | launching wanted server stage =>
    cases isLaunched
    exact ⟨starter, server, stage, tidy.numbered.distinct.get?_of_mem member⟩
  | _ => contradiction

/-- The task was told what has been decided. -/
def Answered (run : Run) (task : Nat) (language : String) : Prop :=
  ∃ answer, run.bridge.verdict? language = some answer ∧
    run.finished.get? task = some (.ok (.language (answer.map fun _ => language)))

/-- A task that asks for the child server of a language, for that only, and is not cancelled. Nobody
else has to do with it. -/
structure Caller (task : Nat) (language : String) (run : Run) : Prop where
  below : task < run.nextTask
  ready : ∀ job ∈ run.ready, job.Off (.only task)
  off : run.Off (.only task)
  state : (run.tasks.get? task = some (.ensuring language) ∧ run.finished.get? task = none) ∨
    (run.tasks.get? task = none ∧ run.Answered task language)

theorem Off.alone (off : run.Off (.only task))
    (others : ∀ other, other ≠ task → after.tasks.get? other = run.tasks.get? other)
    (groups : after.groups = run.groups) : after.Off (.only task) :=
  ⟨fun other activity isOther found =>
    off.tasks other activity isOther (others other isOther ▸ found), groups ▸ off.groups⟩

theorem Caller.kept (caller : run.Caller task language) {event : BridgeEvent}
    (apart : Apart (.only task) (run.beginning event) after)
    (continues : run.bridge.Continues after.bridge) : after.Caller task language := by
  obtain ⟨tasks, groups, finished, ready⟩ := run.beginning_tables event
  have growing := (run.beginning_later event).1
  have kept : Kept (.only task) (run.beginning event) after := by
    refine apart.kept ?_
    rintro _ rfl later
    exact absurd (Nat.lt_of_lt_of_le caller.below growing) (Nat.not_lt_of_le later)
  have off : (run.beginning event).Off (.only task) :=
    ⟨tasks ▸ caller.off.tasks, groups ▸ caller.off.groups⟩
  have state := caller.state
  rw [← tasks, ← kept.tasks task rfl, Answered, ← finished, ← kept.finished task rfl] at state
  refine ⟨Nat.lt_of_lt_of_le caller.below (Nat.le_trans growing apart.next), ?_, off.kept kept, ?_⟩
  · obtain ⟨more, isReady, moreOff⟩ := kept.ready
    intro job member
    rw [isReady] at member
    rcases List.mem_append.mp member with old | new
    · exact caller.ready job (ready job old)
    · exact moreOff job new
  · refine state.imp_right fun ⟨gone, answer, decided, isFinished⟩ => ⟨gone, answer, ?_, isFinished⟩
    exact continues.verdict language answer decided

/-! ### Events -/

theorem Caller.resumed (caller : run.Caller task language) (tidy : run.Tidy)
    (known : Link.RootKnown run.bridge.root) {signal : Signal} {rest : List Job}
    (isReady : run.ready = .resume task signal :: rest)
    (held : run.tasks.get? task = some (.ensuring language)) :
    (run.act .step).Caller task language := by
  have stepped : run.act .step =
      ({ run with ready := rest } : Run).resume task (.ensuring language) signal := by
    simp [act, step?, isReady, perform, held]
  have off : ∀ job ∈ rest, job.Off (.only task) :=
    fun job member => caller.ready job (isReady ▸ List.mem_cons_of_mem _ member)
  have popped : ({ run with ready := rest } : Run).Caller task language :=
    ⟨caller.below, off, ⟨caller.off.tasks, caller.off.groups⟩, caller.state⟩
  rw [stepped]
  cases signal with
  | cancelled =>
    have uncancelled := caller.ready (.resume task .cancelled) (isReady ▸ List.mem_cons_self)
    exact absurd rfl uncancelled
  | reply reply => exact popped
  | gathered => exact popped
  | started outcome =>
    obtain ⟨wanted, server, up, awaited, rfl, _, decided, _⟩ :=
      tidy.learns known (Or.inr (isReady ▸ List.mem_cons_self)) held
    cases awaited
    have ended : ∀ outcome : Outcome,
        (({ run with ready := rest } : Run).finish task outcome).Off (.only task) :=
      fun outcome => popped.off.alone (fun _ different => get?_finish different outcome) rfl
    refine ⟨popped.below, off, ended _, Or.inr ⟨?_, _, decided, ?_⟩⟩
    · simp [resume, finish, Table.get?_erase]
    · cases up <;> simp [resume, finish, Table.get?_put]

theorem Caller.act (caller : run.Caller task language) (tidy : run.Tidy)
    (orderly : run.bridge.Orderly) (known : Link.RootKnown run.bridge.root) {event : BridgeEvent}
    (letsStart : run.LetsStart event) (uncancelled : event ≠ .cancel task) :
    (run.act event).Caller task language := by
  have continues := (acted_act orderly letsStart).continues tidy
  by_cases woken : event = .step ∧ (∃ signal rest, run.ready = .resume task signal :: rest) ∧
      run.tasks.get? task = some (.ensuring language)
  · obtain ⟨rfl, ⟨signal, rest, isReady⟩, held⟩ := woken
    exact caller.resumed tidy known isReady held
  · have spares : run.Spares (.only task) event := by
      cases event with
      | command command => exact ⟨Nat.ne_of_gt caller.below, fun _ _ => id⟩
      | step =>
        intro job isNext
        refine ⟨caller.ready job (List.mem_of_mem_head? isNext), ?_⟩
        rintro _ signal activity rfl held rfl
        obtain ⟨rest, isReady⟩ := List.head?_eq_some_iff.mp isNext
        rcases caller.state with ⟨ensuring, _⟩ | ⟨gone, _⟩
        · exact woken ⟨rfl, ⟨signal, rest, isReady⟩, ensuring⟩
        · cases gone.symm.trans held
      | cancel other =>
        rintro _ _ rfl
        exact uncancelled rfl
      | _ => trivial
    exact caller.kept (apart_act caller.off spares) continues

/-- Nobody has to do with the next task, and asking for a child server in its name changes nothing
about that. -/
theorem Unclaimed.ensure (unclaimed : run.Unclaimed) (language : String) {ensured : Run}
    {state : Ensured} (isEnsured :
      ({ run with nextTask := run.nextTask + 1 } : Run).ensure language = (ensured, state)) :
    run.nextTask < ensured.nextTask ∧ (∀ job ∈ ensured.ready, job.Off (.only run.nextTask)) ∧
      ensured.Off (.only run.nextTask) ∧ ensured.finished.get? run.nextTask = none := by
  have task (number : Nat) (same : number = run.nextTask) : run.nextTask ≤ number :=
    Nat.le_of_eq same.symm
  have apart : Apart (.only run.nextTask) { run with nextTask := run.nextTask + 1 } ensured := by
    obtain rfl : _ = ensured := congrArg Prod.fst isEnsured
    exact apart_ensure _ language
  have kept := apart.kept fun _ same later => absurd (same ▸ later) (Nat.not_succ_le_self _)
  have before : run.Off (.only run.nextTask) := unclaimed.off_of_later task fun _ => False.elim
  refine ⟨apart.next, ?_, ?_, ?_⟩
  · obtain ⟨more, isReady, moreOff⟩ := kept.ready
    rw [isReady]
    exact List.forall_mem_append.mpr
      ⟨fun job member => (unclaimed.ready job member).mono task fun _ => False.elim, moreOff⟩
  · have begun : ({ run with nextTask := run.nextTask + 1 } : Run).Off (.only run.nextTask) :=
      ⟨before.tasks, before.groups⟩
    exact begun.kept kept
  · exact (kept.finished run.nextTask rfl).trans (unclaimed.finished run.nextTask (Nat.le_refl _))

theorem Unclaimed.caller (unclaimed : run.Unclaimed) (tidy : run.Tidy) (orderly : run.bridge.Orderly)
    (known : Link.RootKnown run.bridge.root) (language : String) :
    (run.act (.command (.ensure language))).Caller run.nextTask language := by
  have acted : Acted run (.command (.ensure language)) _ := acted_act orderly trivial
  have continues := acted.continues tidy
  let entered : Run := { run with nextTask := run.nextTask + 1 }
  have honoured := (tidy.launching.startsKnown known language).honours entered ⟨rfl, rfl, rfl, rfl⟩
  have entering : run.act (.command (.ensure language)) =
      entered.ensureOnly run.nextTask language := rfl
  rcases isEnsured : entered.ensure language with ⟨ensured, state⟩
  rw [isEnsured] at honoured
  obtain ⟨below, ready, off, finished⟩ := unclaimed.ensure language isEnsured
  cases decided : run.bridge.verdict? language with
  | none =>
    rw [decided] at honoured
    obtain ⟨server, rfl, _⟩ := honoured
    have waits : run.act (.command (.ensure language)) =
        ensured.await run.nextTask language (.ensuring language) := by
      rw [entering, ensureOnly, isEnsured]
    rw [waits]
    refine ⟨below, ready, off.alone (fun _ different => get?_block different _) rfl,
      Or.inl ⟨?_, finished⟩⟩
    simp [Run.await, Run.block, Table.get?_put]
  | some answer =>
    have answered : run.act (.command (.ensure language)) =
        ensured.finish run.nextTask (.ok (.language (answer.map fun _ => language))) := by
      rw [decided] at honoured
      rw [entering, ensureOnly, isEnsured]
      cases answer <;> cases honoured <;> rfl
    have stays := continues.verdict language answer decided
    rw [answered] at stays ⊢
    refine ⟨below, ready, off.alone (fun _ different => get?_finish different _) rfl,
      Or.inr ⟨?_, answer, stays, ?_⟩⟩
    · simp [Run.finish, Table.get?_erase]
    · simp [Run.finish, Table.get?_put]

/-! ### Whole runs -/

/-- No host and no language is without a name, there is no shutdown, and no start is cancelled; apart
from that, anything may happen. -/
def Undisturbed (run : Run) (event : BridgeEvent) : Prop :=
  run.LetsStart event ∧ run.WellNamed event

/-- Between two events the tasks are tidy, every start that was attempted was begun once, and nobody
has to do with tasks that there have not been. -/
structure InOrder (run : Run) : Prop where
  tidy : run.Tidy
  orderly : run.bridge.Orderly
  known : Link.RootKnown run.bridge.root
  counted : run.Counted
  unclaimed : run.Unclaimed

theorem InOrder.act (inOrder : run.InOrder) {event : BridgeEvent} (undisturbed : run.Undisturbed event) :
    (run.act event).InOrder := by
  have acted := acted_act inOrder.orderly undisturbed.1
  exact
    { tidy := acted.tidy inOrder.tidy inOrder.orderly undisturbed.1
      orderly := (proceeds inOrder.orderly undisturbed.2).orderly
      known := (acted.continues inOrder.tidy).root ▸ inOrder.known
      counted := acted.counted inOrder.tidy inOrder.known inOrder.counted
      unclaimed := inOrder.unclaimed.act event }

/-- What is known about starts in one state. -/
structure SingleStarts (run : Run) : Prop where
  /-- No language has had two child servers. -/
  servers : (run.bridge.servers.map ChildServer.language).Nodup
  begun : ∀ language, run.bridge.wire.startsOf language = [] ∨ run.bridge.wire.StartedOnce language
  decided : ∀ language answer, run.bridge.verdict? language = some answer →
    run.bridge.wire.StartedOnce language ∨
      (answer = none ∧ run.bridge.config.commandFor? language = none)
  /-- Whoever asks gets what is decided, or has to wait. -/
  asked : ∀ language, run.Honours language
  /-- Whoever has waited learns what is decided. -/
  told : ∀ task outcome activity, .resume task (.started outcome) ∈ run.ready →
    run.tasks.get? task = some activity → run.LearnsVerdict activity outcome
  /-- Nobody waits for a start that is not under way. -/
  waiting : run.idle = true → ∀ task activity language, run.tasks.get? task = some activity →
    activity.awaited? = some language → run.AwaitsStart task language ∧
      ∃ starter server stage, run.tasks.get? starter = some (.launching language server stage)

theorem InOrder.singleStarts (inOrder : run.InOrder) : run.SingleStarts where
  servers := inOrder.tidy.listed.nodup
  begun := by
    intro language
    by_cases attempted : run.Attempted language
    · exact Or.inr (inOrder.counted.once language attempted)
    · exact Or.inl (inOrder.counted.never language attempted)
  decided := by
    intro language answer decided
    cases found : run.bridge.current.get? language with
    | none =>
      simp only [Bridge.verdict?, found] at decided
      split at decided
      · rename_i unconfigured
        cases decided
        exact Or.inr ⟨rfl, Option.isNone_iff_eq_none.mp unconfigured⟩
      · contradiction
    | some server =>
      refine Or.inl (inOrder.counted.once language (Or.inl ⟨server, found, ?_⟩))
      by_contra unmarked
      rw [not_or, Bool.not_eq_true, Bool.not_eq_true] at unmarked
      rw [Bridge.verdict?_fresh found unmarked.1 unmarked.2] at decided
      contradiction
  asked := fun language => (inOrder.tidy.launching.startsKnown inOrder.known language).honours
  told := fun _ _ _ told held => inOrder.tidy.learns inOrder.known (Or.inr told) held
  waiting := fun idle _ _ _ held awaited => inOrder.tidy.awaits_when_idle idle held awaited

section Reached

variable {config : Config} {padding : Padding} {names : LanguageNames} {rules : Option (List Rule)}
  {root : Option String} {publishes : Bool} {editor : Editor} {before : Run}
  {earlier later : List BridgeEvent}

theorem reached_inOrder (known : Link.RootKnown root) (reached : Reached act Undisturbed
      (fresh config padding names rules root publishes editor) earlier run) : run.InOrder := by
  refine reached.invariant InOrder ?_ fun _ _ undisturbed inOrder => inOrder.act undisturbed
  exact
    { tidy := fresh_tidy config padding names rules root publishes editor
      orderly := ⟨Store.fresh_proper padding names rules, fun _ _ => rfl⟩
      known := known
      counted :=
        { once := by
            rintro language (⟨server, found, _⟩ | ⟨task, activity, held, _⟩)
            · cases found
            · cases held
          never := fun _ _ => rfl }
      unclaimed := unclaimed_of_reached .start }

theorem InOrder.afterwards (inOrder : before.InOrder)
    (reached : Reached Run.act Undisturbed before later after) :
    after.InOrder ∧ before.bridge.Continues after.bridge ∧
      before.bridge.wire.Adds (fun _ => True) after.bridge.wire := by
  refine reached.invariant (fun run => run.InOrder ∧ before.bridge.Continues run.bridge ∧
    before.bridge.wire.Adds (fun _ => True) run.bridge.wire) ⟨inOrder, .refl _, .refl _⟩ ?_
  rintro run event undisturbed ⟨kept, continues, adds⟩
  exact ⟨kept.act undisturbed,
    continues.trans ((acted_act kept.orderly undisturbed.1).continues kept.tidy),
    adds.trans ((proceeds kept.orderly undisturbed.2).effects.mono fun _ _ => trivial)⟩

/-- Whoever asks for a child server only, and is not cancelled, is told what is decided as soon as it
is. -/
theorem InOrder.caller (inOrder : before.InOrder) (language : String)
    (reached : Reached Run.act
      (fun run event => run.Undisturbed event ∧ event ≠ .cancel before.nextTask)
      (before.act (.command (.ensure language))) later after) :
    after.Caller before.nextTask language := by
  refine (reached.invariant (fun run => run.InOrder ∧ run.Caller before.nextTask language)
    ⟨inOrder.act ⟨trivial, trivial⟩, ?_⟩ ?_).2
  · exact inOrder.unclaimed.caller inOrder.tidy inOrder.orderly inOrder.known language
  · rintro run event ⟨undisturbed, uncancelled⟩ ⟨kept, caller⟩
    exact ⟨kept.act undisturbed,
      caller.act kept.tidy kept.orderly kept.known undisturbed.1 uncancelled⟩

/-- Each language has one child server at most, which is started once at most. All who ask for it get
the same answer: the server if the start has succeeded, and nothing if it has failed or there is no
command. That answer is final. -/
theorem one_start_per_language
    (rooted : ∀ path, root = some path → path = "" ∨ path.toList.head? = some '/')
    (reached : Reached act Undisturbed
      (fresh config padding names rules root publishes editor) earlier before) :
    before.SingleStarts ∧
    (∀ later after, Reached act Undisturbed before later after → ∀ language,
      (∀ answer, before.bridge.verdict? language = some answer →
        after.bridge.verdict? language = some answer) ∧
      (before.bridge.wire.StartedOnce language →
        after.bridge.wire.startsOf language = before.bridge.wire.startsOf language)) ∧
    ∀ language later after,
      Reached act (fun run event => run.Undisturbed event ∧ event ≠ .cancel before.nextTask)
        (before.act (.command (.ensure language))) later after →
      after.Answered before.nextTask language ∨
        (after.finished.get? before.nextTask = none ∧
          after.tasks.get? before.nextTask = some (.ensuring language)) := by
  have inOrder := reached_inOrder (Link.rootKnown_of_absolute rooted) reached
  refine ⟨inOrder.singleStarts, fun later after afterwards language => ?_,
    fun language later after asked => ?_⟩
  · obtain ⟨stillInOrder, continues, adds⟩ := inOrder.afterwards afterwards
    exact ⟨continues.verdict language, fun once =>
      once.stays adds (stillInOrder.singleStarts.begun language)⟩
  · exact (inOrder.caller language asked).state.symm.imp And.right And.symm

end Reached

/-! ### A start that fails

The handler of the second host waits for a child server, and somebody else asks for the same one. The
handler is cancelled, which leaves the start alone, and then the start fails. -/

def askedMeanwhile : Run :=
  twoHosts.act (.command (.ensure "json"))

def failedStart : Run :=
  ((askedMeanwhile.cancel 2).2.release "slow" (.failure "no such command")).2

set_option maxRecDepth 2000 in
theorem failedStart_finished :
    (failedStart.finished.get? 2, failedStart.finished.get? 4) =
      (some (.error .cancelled), some (.ok (.language none))) := by
  cbv

theorem AdmitsCalmly.undisturbed {event : BridgeEvent} (admitted : run.AdmitsCalmly event) :
    run.Undisturbed event := by
  refine ⟨?_, admitted.1.wellNamed⟩
  cases event with
  | command command => cases command <;> first | trivial | exact admitted.1.elim
  | cancel task => exact absurd rfl (admitted.2 task)
  | _ => trivial

theorem one_start_per_language_of_failed_start :
    twoHosts.tasks.get? 2 = some (.syncing "b" "json" ["python"]) ∧
    failedStart.finished.get? 2 = some (.error .cancelled) ∧
    failedStart.finished.get? 4 = some (.ok (.language none)) ∧
    failedStart.Answered 4 "json" ∧ failedStart.bridge.verdict? "json" = some none ∧
    failedStart.SingleStarts ∧
    failedStart.bridge.wire.startsOf "json" =
      [.sent "json" 1 (.create "polyglot-lsp-json"), .sent "json" 1 (.spawn ["j"])] := by
  have waiting : twoHosts.tasks.get? 2 = some (.syncing "b" "json" ["python"]) := by cbv
  have waitingStill : askedMeanwhile.tasks.get? 2 = some (.syncing "b" "json" ["python"]) := by cbv
  have number : twoHosts.nextTask = 4 := by cbv
  have ended := Prod.mk.inj failedStart_finished
  have starts : twoHosts.bridge.wire.startsOf "json" =
      [.sent "json" 1 (.create "polyglot-lsp-json"), .sent "json" 1 (.spawn ["j"])] := by
    rw [Wire.startsOf, twoHosts_effects]
    rfl
  obtain ⟨_, calm⟩ := twoHosts_calm
  have reached := calm.mono fun _ _ => AdmitsCalmly.undisturbed
  let allowed := fun (run : Run) (event : BridgeEvent) =>
    run.Undisturbed event ∧ event ≠ .cancel twoHosts.nextTask
  have steps : ∀ run, allowed run .step := fun _ =>
    ⟨⟨trivial, trivial⟩, fun other => by cases other⟩
  have cancels : allowed askedMeanwhile (.cancel 2) := by
    refine ⟨⟨fun activity held => ?_, trivial⟩, by simp [number]⟩
    cases waitingStill.symm.trans held
    rfl
  obtain ⟨_, cancelled⟩ := reached_cancel steps .start cancels
  obtain ⟨_, failed⟩ := reached_release steps cancelled "slow" (.failure "no such command")
    ⟨⟨trivial, trivial⟩, fun other => by cases other⟩
  have rooted : ∀ path, (none : Option String) = some path →
      path = "" ∨ path.toList.head? = some '/' := fun _ other => by cases other
  obtain ⟨_, onwards, callers⟩ := one_start_per_language rooted reached
  have answered : failedStart.Answered 4 "json" := by
    have outcome := callers "json" _ failedStart failed
    rw [number] at outcome
    refine outcome.resolve_right fun unfinished => ?_
    cases ended.2.symm.trans unfinished.1
  have decided : failedStart.bridge.verdict? "json" = some none := by
    obtain ⟨answer, isDecided, isFinished⟩ := answered
    cases answer with
    | none => exact isDecided
    | some server => cases ended.2.symm.trans isFinished
  have asks : Reached act Undisturbed twoHosts [.command (.ensure "json")] askedMeanwhile :=
    .step .start _ ⟨trivial, trivial⟩
  have fails := asks.trans (failed.mono fun _ _ => And.left)
  -- the start that has failed had begun before, and does not begin again
  have again := (onwards _ failedStart fails "json").2 ⟨_, _, _, starts⟩
  exact ⟨waiting, ended.1, ended.2, answered, decided,
    (one_start_per_language rooted (reached.trans fails)).1, again.trans starts⟩

end Run

end LanguageBridge
