import LanguageBridge.Proofs.Bridge.Verdicts

namespace LanguageBridge

/-! The start of a child server is attempted once. -/

/-- The beginning of a start of a language: its client is created, and its process spawned. -/
def Effect.isStartOf (language : String) : Effect → Bool
  | .sent sender _ message => sender = language && message.isStart
  | _ => false

namespace Wire

def startsOf (wire : Wire) (language : String) : List Effect :=
  wire.effects.filter (Effect.isStartOf language)

def StartedOnce (wire : Wire) (language : String) : Prop :=
  ∃ client name command, wire.startsOf language =
    [.sent language client (.create name), .sent language client (.spawn command)]

theorem startsOf_append {before after : Wire} {more : List Effect}
    (same : after.effects = before.effects ++ more) (language : String) :
    after.startsOf language = before.startsOf language ++ more.filter (Effect.isStartOf language) := by
  rw [startsOf, same, List.filter_append, startsOf]

theorem filter_unstarted {effects : List Effect} (unstarted : ∀ effect ∈ effects, effect.Unstarted)
    (language : String) : effects.filter (Effect.isStartOf language) = [] := by
  rw [List.filter_eq_nil_iff]
  intro effect member
  have apart := unstarted effect member
  cases effect with
  | sent sender client message =>
    have isPlain : message.isStart = false := apart
    simp [Effect.isStartOf, isPlain]
  | _ => simp [Effect.isStartOf]

theorem Adds.startsOf {before after : Wire} (adds : before.Adds Effect.Unstarted after)
    (language : String) : after.startsOf language = before.startsOf language := by
  obtain ⟨more, same, unstarted⟩ := adds
  rw [startsOf_append same, filter_unstarted unstarted, List.append_nil]

end Wire

/-- A server that is not up creates one client and spawns one process. -/
theorem Link.start_startsOf {link : Link} (down : link.server.started = false)
    (root : Option String) (language : String) :
    (link.start root).1.wire.startsOf language = link.wire.startsOf language ++
      if language = link.server.language then
        [.sent language link.wire.clients (.create (bridgeName ++ "-" ++ language)),
          .sent language link.wire.clients (.spawn link.server.command)]
      else [] := by
  rcases link.start_adds root with ⟨up, _⟩ | ⟨_, more, routine, same⟩
  · rw [down] at up
    contradiction
  · rw [Wire.startsOf_append same, List.filter_cons, List.filter_cons,
      Wire.filter_unstarted fun effect member => (routine effect member).unstarted]
    by_cases here : language = link.server.language
    · subst here
      simp [Effect.isStartOf, ChildMessage.isStart]
    · simp [Effect.isStartOf, here, Ne.symm here]

namespace Run

/-- A task is at the start of this language. -/
def Occupied (run : Run) (language : String) : Prop :=
  ∃ task activity, run.tasks.get? task = some activity ∧ activity.launched? = some language

def Attempted (run : Run) (language : String) : Prop :=
  run.bridge.Tried language ∨ run.Occupied language

/-- What has been attempted was begun once, and nothing else was begun. -/
structure Counted (run : Run) : Prop where
  once : ∀ language, run.Attempted language → run.bridge.wire.StartedOnce language
  never : ∀ language, ¬ run.Attempted language → run.bridge.wire.startsOf language = []

variable {run middle after : Run} {task : Nat} {errand : Errand} {language : String}
  {server : Nat}

theorem Counted.kept (counted : run.Counted)
    (attempted : ∀ language, after.Attempted language ↔ run.Attempted language)
    (starts : ∀ language, after.bridge.wire.startsOf language = run.bridge.wire.startsOf language) :
    after.Counted where
  once := fun language isAttempted => by
    have once := counted.once language ((attempted language).mp isAttempted)
    unfold Wire.StartedOnce at once ⊢
    rw [starts language]
    exact once
  never := fun language unattempted =>
    (starts language).trans (counted.never language (mt (attempted language).mpr unattempted))

theorem Counted.congr (counted : run.Counted) (tasks : after.tasks = run.tasks)
    (expands : run.bridge.Expands after.bridge) : after.Counted := by
  refine counted.kept (fun language => or_congr (expands.tried language) ?_) expands.effects.startsOf
  unfold Occupied
  rw [tasks]

/-- Only one task has changed, and it is at no start of this language, before or after. -/
theorem occupied_iff (others : ∀ other, other ≠ task → after.tasks.get? other = run.tasks.get? other)
    (before : ∀ activity, run.tasks.get? task = some activity → activity.launched? ≠ some language)
    (later : ∀ activity, after.tasks.get? task = some activity → activity.launched? ≠ some language) :
    after.Occupied language ↔ run.Occupied language := by
  constructor
  · rintro ⟨other, activity, held, launched⟩
    have different : other ≠ task := by
      rintro rfl
      exact later activity held launched
    exact ⟨other, activity, others other different ▸ held, launched⟩
  · rintro ⟨other, activity, held, launched⟩
    have different : other ≠ task := by
      rintro rfl
      exact before activity held launched
    exact ⟨other, activity, (others other different).symm ▸ held, launched⟩

theorem Turn.counted (turn : Turn task errand run after) (listed : run.bridge.Listed)
    (apart : ∀ activity, run.tasks.get? task = some activity → activity.launched? = none)
    (counted : run.Counted) : after.Counted := by
  have expands := turn.expands listed
  refine counted.kept (fun language => or_congr (expands.tried language) ?_) expands.effects.startsOf
  refine occupied_iff (fun _ => turn.others) (fun activity held launched => ?_)
    fun activity held launched => ?_
  · rw [apart activity held] at launched
    contradiction
  · rw [turn.unlaunched held] at launched
    contradiction

/-- A start that waits or has ended is an attempt; about other languages nothing changes. -/
theorem Launched.attempted {launched : Link × Attempt LaunchStage Bool}
    (result : Launched run task language server launched after)
    (atStart : run.AtStart task language server) (known : Link.RootKnown run.bridge.root)
    (ended : ∀ outcome, launched.2 = .done outcome →
      launched.1.server.Ended run.bridge.root outcome)
    (mine : ∀ activity, run.tasks.get? task = some activity →
      activity.launched? = none ∨ activity.launched? = some language) :
    after.Attempted language ∧
      ∀ wanted, wanted ≠ language → (after.Attempted wanted ↔ run.Attempted wanted) := by
  have others : ∀ {bridge : Bridge}, (run.bridge.setLink server launched.1).Unmoved bridge →
      after.bridge = bridge →
      (∀ activity, after.tasks.get? task = some activity → activity.launched? = some language) →
      ∀ wanted, wanted ≠ language → (after.Attempted wanted ↔ run.Attempted wanted) := by
    intro bridge unmoved isBridge later wanted other
    have tried := (Bridge.Expands.unmoved unmoved).tried wanted
    rw [atStart.listed.tried_setLink atStart.found launched.1 other] at tried
    refine or_congr (isBridge ▸ tried) (occupied_iff (fun _ => result.others) ?_ ?_)
    · intro activity held isWanted
      rcases mine activity held with none | same
      · rw [none] at isWanted
        contradiction
      · exact other (Option.some.inj (isWanted.symm.trans same))
    · intro activity held isWanted
      exact other (Option.some.inj (isWanted.symm.trans (later activity held)))
  have tried : ∀ {bridge : Bridge} {outcome : Except Fault Bool}, launched.2 = .done outcome →
      (run.bridge.setLink server launched.1).Unmoved bridge → bridge.Tried language := by
    intro bridge outcome isDone unmoved
    have standing := unmoved.standing server
    rw [atStart.listed.link_setLink_same atStart.found launched.1] at standing
    have marked := (ended outcome isDone).marked known
    exact ⟨server, unmoved.current ▸ atStart.found, marked.imp
      (congrArg Standing.started standing).trans (congrArg Standing.failed standing).trans⟩
  cases result with
  | @waits key stage blocked =>
    have held : ((run.setBridge (run.bridge.setLink server launched.1)).hold task key
        (.launching language server stage)).tasks.get? task =
          some (.launching language server stage) := by
      simp [Run.hold, Run.block, Table.get?_put]
    refine ⟨Or.inr ⟨task, _, held, rfl⟩, others (.refl _) rfl fun activity isHeld => ?_⟩
    cases held.symm.trans isHeld
    rfl
  | settles isDone short =>
    refine ⟨Or.inl (tried isDone (.refl _)), others (.refl _) rfl fun activity held => ?_⟩
    simp [Run.settle, Run.enqueue, Run.setBridge, Table.get?_erase] at held
  | @synced bridge result isDone synced =>
    have unmoved := Bridge.Unmoved.syncAll synced
    refine ⟨Or.inl (tried isDone unmoved), others unmoved rfl fun activity held => ?_⟩
    simp [Run.settle, Run.enqueue, Run.setBridge, Table.get?_erase] at held

theorem Launched.startsOf {launched : Link × Attempt LaunchStage Bool}
    (result : Launched run task language server launched after) (wanted : String) :
    after.bridge.wire.startsOf wanted = launched.1.wire.startsOf wanted := by
  cases result with
  | waits blocked => rfl
  | settles isDone short => rfl
  | synced isDone synced => exact (Bridge.Unmoved.syncAll synced).effects.startsOf wanted

theorem Launched.counted_first (result : Launched run task language server
      ((run.bridge.link server).start run.bridge.root) after)
    (atStart : run.AtStart task language server) (known : Link.RootKnown run.bridge.root)
    (absent : run.tasks.get? task = none) (counted : run.Counted) : after.Counted := by
  have named := (atStart.listed.placed language server atStart.found).2
  have launches : (run.bridge.link server).Launches run.bridge.root
      ((run.bridge.link server).start run.bridge.root) :=
    Link.start_launches fun up => nomatch atStart.down.symm.trans up
  obtain ⟨attempted, others⟩ := result.attempted atStart known
    (fun _ => launches.ended (Link.start_verdict _ _) atStart.down)
    (fun activity held => by rw [absent] at held; contradiction)
  have unattempted : ¬ run.Attempted language := by
    rintro (⟨other, found, marked⟩ | ⟨other, activity, held, launched⟩)
    · cases atStart.found.symm.trans found
      rw [atStart.down, atStart.untried] at marked
      rcases marked with up | failed <;> contradiction
    · have different : other ≠ task := by
        rintro rfl
        rw [absent] at held
        contradiction
      have stillHeld : (run.without task).tasks.get? other = some activity := by
        simp only [Run.without, Table.get?_erase, if_neg different]
        exact held
      exact atStart.launching.alone List.mem_cons_self
        (Launching.mem_launches_of_held stillHeld launched)
  have starts : ∀ wanted, after.bridge.wire.startsOf wanted = _ := fun wanted =>
    (result.startsOf wanted).trans (Link.start_startsOf atStart.down run.bridge.root wanted)
  constructor
  · intro wanted isAttempted
    by_cases same : wanted = language
    · subst same
      have before : (run.bridge.link server).wire.startsOf wanted = [] :=
        counted.never wanted unattempted
      have first := starts wanted
      rw [if_pos named.symm, before, List.nil_append] at first
      exact ⟨_, _, _, first⟩
    · have once := counted.once wanted ((others wanted same).mp isAttempted)
      unfold Wire.StartedOnce at once ⊢
      rw [starts wanted, named, if_neg same, List.append_nil]
      exact once
  · intro wanted isUnattempted
    have different : wanted ≠ language := by
      rintro rfl
      exact isUnattempted attempted
    rw [starts wanted, named, if_neg different, List.append_nil]
    exact counted.never wanted (mt (others wanted different).mpr isUnattempted)

theorem Launched.counted_again {stage : LaunchStage} {reply : Reply}
    (result : Launched run task language server
      ((run.bridge.link server).resumeStart stage reply) after)
    (atStart : run.AtStart task language server) (known : Link.RootKnown run.bridge.root)
    (held : run.tasks.get? task = some (.launching language server stage))
    (waiting : (run.bridge.link server).Waiting run.bridge.root stage)
    (counted : run.Counted) : after.Counted := by
  have launches := Link.resumeStart_launches waiting reply
  obtain ⟨attempted, others⟩ := result.attempted atStart known
    (fun _ => launches.ended (Link.Ventures.resumeStart _ stage reply).verdict atStart.down)
    (fun activity isHeld => Or.inr (by cases held.symm.trans isHeld; rfl))
  refine counted.kept (fun wanted => ?_) fun wanted => ?_
  · by_cases same : wanted = language
    · subst same
      exact ⟨fun _ => Or.inr ⟨task, _, held, rfl⟩, fun _ => attempted⟩
    · exact others wanted same
  · have routine : (run.bridge.link server).wire.Adds Effect.Unstarted
        ((run.bridge.link server).resumeStart stage reply).1.wire :=
      Wire.Adds.mono (fun _ => Effect.Routine.unstarted) (Link.Routine.resumeStart _ stage reply)
    exact (result.startsOf wanted).trans (routine.startsOf wanted)

theorem Worked.counted {job : Job} {rest : List Job}
    (worked : Worked { run with ready := rest } job after) (tidy : run.Tidy)
    (known : Link.RootKnown run.bridge.root)
    (isReady : run.ready = job :: rest) (counted : run.Counted) : after.Counted := by
  have popped : ({ run with ready := rest } : Run).Counted := ⟨counted.once, counted.never⟩
  have absent : ∀ task, job.begins? = some task → run.tasks.get? task = none := by
    intro task begins
    refine tidy.numbered.absent (List.mem_filterMap.mpr ⟨job, ?_, begins⟩)
    exact isReady ▸ List.mem_cons_self
  cases worked with
  | begun joins turn =>
    refine turn.counted tidy.listed (fun activity held => ?_) popped
    cases (absent _ joins.begins).symm.trans held
  | withheld joins cancelled ends =>
    refine Turn.counted (.ends ?_ ends) tidy.listed (fun activity held => ?_) popped
    · trivial
    · cases (absent _ joins.begins).symm.trans held
  | launch launched =>
    exact launched.counted_first (tidy.launch isReady).speaking known (absent _ rfl)
      ⟨counted.once, counted.never⟩
  | relaunched held launched =>
    exact launched.counted_again (tidy.relaunch isReady held) known held
      (tidy.launching.tasks _ _ held).2 popped
  | resumed held other meant turn =>
    refine turn.counted tidy.listed (fun activity isHeld => ?_) popped
    cases held.symm.trans isHeld
    exact other
  | @abandoned task activity after held ends =>
    refine Turn.counted (.ends ?_ ends) tidy.listed (fun other isHeld => ?_) popped
    · cases activity <;> trivial
    · by_contra launched
      have exposed : run.Exposed task := Or.inl (isReady ▸ List.mem_cons_self)
      exact (tidy.spared task exposed).2 (Or.inr ⟨other, isHeld, launched⟩)
  | ignored idle => exact popped
  | stopped held stops => exact absurd (tidy.launching.ordinary _ _ held) stops
  | forgotten language => exact ⟨counted.once, counted.never⟩
  | relayed other outcome => exact ⟨counted.once, counted.never⟩
  | noted notes => exact popped.congr notes.unmoved.tasks (.unmoved notes.unmoved.bridge)
  | woken notes =>
    have noted := popped.congr notes.unmoved.tasks (.unmoved notes.unmoved.bridge)
    exact ⟨noted.once, noted.never⟩

theorem tasks_interruptGroup (run : Run) (task : Nat) (group : Group) :
    (run.interruptGroup task group).tasks = run.tasks := by
  unfold interruptGroup
  generalize group.members.filter run.tasks.contains = members
  exact List.foldlRecOn (motive := fun after : Run => after.tasks = run.tasks) members interrupt rfl
    fun _ same _ _ => same

theorem tasks_withdraw? (withdrawn : run.withdraw? task = some after) : after.tasks = run.tasks := by
  obtain ⟨_, _, rfl⟩ := Option.map_eq_some_iff.mp withdrawn
  split
  · exact run.tasks_interruptGroup task _
  · rfl

theorem Acted.counted {event : BridgeEvent} (acted : Acted run event after) (tidy : run.Tidy)
    (known : Link.RootKnown run.bridge.root) (counted : run.Counted) : after.Counted := by
  cases acted with
  | @entered command after issues turn =>
    have taken : (run.taking command).Counted := counted.congr rfl (run.expands_taking command)
    refine turn.counted (tidy.taking command).listed (fun activity held => ?_) taken
    have fresh : run.nextTask ∉ run.numbers :=
      fun member => Nat.lt_irrefl _ (tidy.numbered.below _ member)
    cases (absent_of_unnumbered fresh).symm.trans held
  | worked isReady worked => exact worked.counted tidy known isReady counted
  | freed key task reply => exact ⟨counted.once, counted.never⟩
  | prepared peer call replies =>
    exact counted.congr rfl (.unmoved ⟨rfl, rfl, rfl, rfl, rfl, .of_effects rfl⟩)
  | withdrawn withdrawn =>
    have expands : run.bridge.Expands after.bridge := by
      rw [bridge_withdraw? withdrawn]
      exact .refl _
    exact counted.congr (tasks_withdraw? withdrawn) expands
  | unchanged outside => exact counted

end Run

end LanguageBridge
