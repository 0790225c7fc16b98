import LanguageBridge.Proofs.Bridge.Upkeep

namespace LanguageBridge

/-! What has become of the child server of a language. Once that is decided it stays so, and until then
it has been started once at most. -/

namespace Bridge

/-- The child server of a language if it is up, and none if it has failed or there is no command for
it. It is open until a start has ended. -/
def verdict? (bridge : Bridge) (language : String) : Option (Option Nat) :=
  match bridge.current.get? language with
  | none => if (bridge.config.commandFor? language).isNone then some none else none
  | some server =>
    if (bridge.link server).server.started then some (some server)
    else if (bridge.link server).server.failed then some none
    else none

/-- The settings stay, and what is decided stays decided. -/
structure Continues (before after : Bridge) : Prop where
  config : after.config = before.config
  root : after.root = before.root
  verdict : ∀ language answer, before.verdict? language = some answer →
    after.verdict? language = some answer

/-- Some start of a language has ended. -/
def Tried (bridge : Bridge) (language : String) : Prop :=
  ∃ server, bridge.current.get? language = some server ∧
    ((bridge.link server).server.started = true ∨ (bridge.link server).server.failed = true)

/-- Child servers come in for languages with a command, and that is all that happens to them. -/
structure Expands (before after : Bridge) : Prop where
  config : after.config = before.config
  root : after.root = before.root
  current : ∀ language server, before.current.get? language = some server →
    after.current.get? language = some server
  created : ∀ language server, after.current.get? language = some server →
    before.current.get? language = some server ∨
      (before.current.get? language = none ∧ (before.config.commandFor? language).isSome ∧
        (after.link server).server.started = false ∧ (after.link server).server.failed = false)
  standing : ∀ language server, before.current.get? language = some server →
    (after.link server).server.standing = (before.link server).server.standing
  effects : before.wire.Adds Effect.Unstarted after.wire

variable {bridge before middle after : Bridge} {language : String} {server : Nat}

namespace Expands

theorem refl (bridge : Bridge) : bridge.Expands bridge :=
  ⟨rfl, rfl, fun _ _ => id, fun _ _ => Or.inl, fun _ _ _ => rfl, .refl _⟩

theorem trans (first : before.Expands middle) (second : middle.Expands after) :
    before.Expands after where
  config := second.config.trans first.config
  root := second.root.trans first.root
  current := fun language server found => second.current _ _ (first.current language server found)
  created := by
    intro language server found
    rcases second.created language server found with known | ⟨unknown, configured, fresh⟩
    · rcases first.created language server known with older | ⟨unknown, configured, down, untried⟩
      · exact Or.inl older
      · have same := second.standing language server known
        exact Or.inr ⟨unknown, configured, (congrArg Standing.started same).trans down,
          (congrArg Standing.failed same).trans untried⟩
    · refine Or.inr ⟨?_, first.config ▸ configured, fresh⟩
      cases older : before.current.get? language with
      | none => rfl
      | some server =>
        rw [first.current language server older] at unknown
        contradiction
  standing := fun language server found =>
    (second.standing language server (first.current _ _ found)).trans
      (first.standing language server found)
  effects := first.effects.trans second.effects

theorem unmoved (unmoved : before.Unmoved after) : before.Expands after where
  config := unmoved.config
  root := unmoved.root
  current := fun _ _ found => unmoved.current ▸ found
  created := fun _ _ found => Or.inl (unmoved.current ▸ found)
  standing := fun _ server _ => unmoved.standing server
  effects := unmoved.effects

theorem addServer (listed : bridge.Listed) (unknown : bridge.current.get? language = none)
    {command : List String} (configured : bridge.config.commandFor? language = some command) :
    bridge.Expands (bridge.addServer language command) where
  config := rfl
  root := rfl
  current := fun _ _ found => addServer_current unknown found
  created := by
    intro wanted server found
    rcases addServer_current_cases found with ⟨rfl, rfl⟩ | known
    · rw [addServer_link_new]
      exact Or.inr ⟨unknown, by simp [configured], rfl, rfl⟩
    · exact Or.inl known
  standing := fun wanted server found => by rw [addServer_link (listed.placed wanted server found).1]
  effects := .refl _

theorem tried (expands : before.Expands after) (language : String) :
    after.Tried language ↔ before.Tried language := by
  constructor
  · rintro ⟨server, found, marked⟩
    rcases expands.created language server found with known | ⟨_, _, down, untried⟩
    · have same := expands.standing language server known
      exact ⟨server, known, marked.imp (congrArg Standing.started same).symm.trans
        (congrArg Standing.failed same).symm.trans⟩
    · rw [down, untried] at marked
      rcases marked with up | failed <;> contradiction
  · rintro ⟨server, found, marked⟩
    have same := expands.standing language server found
    exact ⟨server, expands.current _ _ found, marked.imp (congrArg Standing.started same).trans
      (congrArg Standing.failed same).trans⟩

end Expands

/-! ### Verdicts stay -/

theorem verdict?_congr (config : after.config = before.config)
    (current : after.current.get? language = before.current.get? language)
    (marks : ∀ server, before.current.get? language = some server →
      (after.link server).server.started = (before.link server).server.started ∧
        (after.link server).server.failed = (before.link server).server.failed) :
    after.verdict? language = before.verdict? language := by
  unfold verdict?
  rw [current, config]
  split
  · rfl
  · rename_i server found
    rw [(marks server found).1, (marks server found).2]

theorem Continues.refl (bridge : Bridge) : bridge.Continues bridge :=
  ⟨rfl, rfl, fun _ _ => id⟩

theorem Continues.trans (first : before.Continues middle) (second : middle.Continues after) :
    before.Continues after where
  config := second.config.trans first.config
  root := second.root.trans first.root
  verdict := fun language answer decided =>
    second.verdict language answer (first.verdict language answer decided)

theorem Expands.continues (expands : before.Expands after) : before.Continues after := by
  refine ⟨expands.config, expands.root, fun language answer decided => ?_⟩
  rw [← decided]
  refine verdict?_congr expands.config ?_ fun server found => ?_
  · cases known : before.current.get? language with
    | some server => exact expands.current language server known
    | none =>
      cases created : after.current.get? language with
      | none => rfl
      | some server =>
        rcases expands.created language server created with same | ⟨_, configured, _⟩
        · rw [known] at same
          contradiction
        · simp [verdict?, known, Option.isSome_iff_ne_none.mp configured] at decided
  · have same := expands.standing language server found
    exact ⟨congrArg Standing.started same, congrArg Standing.failed same⟩

theorem verdict?_fresh (found : bridge.current.get? language = some server)
    (down : (bridge.link server).server.started = false)
    (untried : (bridge.link server).server.failed = false) : bridge.verdict? language = none := by
  simp [verdict?, found, down, untried]

/-- A child server that has not been tried is at work. -/
theorem Listed.continues (listed : before.Listed)
    (found : before.current.get? language = some server)
    (down : (before.link server).server.started = false)
    (untried : (before.link server).server.failed = false) (link : Link) :
    before.Continues (before.setLink server link) := by
  refine ⟨rfl, rfl, fun wanted answer decided => ?_⟩
  have other : wanted ≠ language := by
    rintro rfl
    rw [verdict?_fresh found down untried] at decided
    contradiction
  have grows := listed.grows_setLink found link
  rw [← decided]
  exact verdict?_congr rfl rfl fun wantedServer wantedFound =>
    ⟨grows.keeps_started wantedFound (by simpa using other),
      grows.keeps_failed wantedFound (by simpa using other)⟩

theorem Listed.tried_setLink (listed : bridge.Listed)
    (found : bridge.current.get? language = some server) (link : Link) {wanted : String}
    (other : wanted ≠ language) : (bridge.setLink server link).Tried wanted ↔ bridge.Tried wanted := by
  have grows := listed.grows_setLink found link
  refine exists_congr fun wantedServer => and_congr_right fun wantedFound => ?_
  rw [grows.keeps_started wantedFound (by simpa using other),
    grows.keeps_failed wantedFound (by simpa using other)]

end Bridge

/-! ### Turns -/

namespace Run

variable {run middle after : Run} {task : Nat} {errand : Errand} {language : String}
  {server : Nat}

section Others

variable {other : Nat} (different : other ≠ task)
include different

/-- Whoever takes a turn leaves those alone that wait. -/
theorem Ends.others (ends : Ends task errand run after) :
    after.tasks.get? other = run.tasks.get? other := by
  induction ends with
  | drop left memory next ih => exact ih
  | finish run none outcome => exact get?_finish different outcome
  | report run parent index outcome => rw [Run.enqueue, Table.get?_erase, if_neg different]

theorem Turn.others (turn : Turn task errand run after) :
    after.tasks.get? other = run.tasks.get? other := by
  induction turn with
  | move move next ih => rw [ih, move.unmoved.tasks]
  | create unknown configured next ih => exact ih
  | launch found down untried first next ih => exact ih
  | ends relieved ends => exact ends.others different
  | hold run key holds => exact get?_block different _
  | await awaits current down found unsettled => exact get?_block different _
  | split relieved joins requests searched => exact get?_block different _

theorem Launched.others {launched : Link × Attempt LaunchStage Bool}
    (result : Launched run task language server launched after) :
    after.tasks.get? other = run.tasks.get? other := by
  have settled (bridge : Bridge) (outcome : Except Fault Bool) :
      ((run.setBridge bridge).settle task language outcome).tasks.get? other =
        run.tasks.get? other := by
    simp only [Run.settle, Run.enqueue, Run.setBridge, Table.get?_erase, if_neg different]
  cases result with
  | waits blocked => exact get?_block different _
  | settles ended short => exact settled _ _
  | synced ended synced => exact settled _ _

end Others

theorem Ends.expands (ends : Ends task errand run after) : run.bridge.Expands after.bridge := by
  induction ends with
  | drop left memory next ih =>
    exact ⟨ih.config, ih.root, ih.current, ih.created, ih.standing, ih.effects⟩
  | finish run none outcome => exact .refl _
  | report run parent index outcome => exact .refl _

theorem Turn.expands (turn : Turn task errand run after) (listed : run.bridge.Listed) :
    run.bridge.Expands after.bridge := by
  induction turn with
  | move move next ih =>
    have unmoved := move.unmoved
    exact (Bridge.Expands.unmoved unmoved.bridge).trans (ih (unmoved.bridge.listed listed))
  | create unknown configured next ih =>
    exact (Bridge.Expands.addServer listed unknown configured).trans
      (ih (listed.addServer unknown _))
  | launch found down untried first next ih => exact ih listed
  | ends relieved ends => exact ends.expands
  | hold run key holds => exact .refl _
  | await awaits current down found unsettled => exact .refl _
  | split relieved joins requests searched => exact .refl _

theorem Turn.unlaunched (turn : Turn task errand run after) {activity : Activity}
    (held : after.tasks.get? task = some activity) : activity.launched? = none := by
  have of_put : ∀ (run : Run) (blocked : Activity), blocked.launched? = none →
      (run.tasks.put task blocked).get? task = some activity → activity.launched? = none := by
    intro run blocked unlaunched isHeld
    rw [Table.get?_put, if_pos rfl, Option.some.injEq] at isHeld
    exact isHeld ▸ unlaunched
  induction turn with
  | move move next ih => exact ih held
  | create unknown configured next ih => exact ih held
  | launch found down untried first next ih => exact ih held
  | ends relieved ends =>
    induction ends with
    | drop left memory next ih => exact ih trivial held
    | finish run none outcome => simp [Run.finish, Table.get?_erase] at held
    | report run parent index outcome => simp [Run.enqueue, Table.get?_erase] at held
  | @hold errand blocked run key holds => exact of_put run blocked holds.plain.unlaunched held
  | @await errand run language server startUp blocked awaits current down found unsettled =>
    exact of_put run blocked (Activity.unlaunched_of_awaited awaits.awaited) held
  | @split errand run purpose count job relieved joins requests searched =>
    exact of_put run .gathering rfl held

/-! ### Starts and jobs -/

theorem Launched.continues {launched : Link × Attempt LaunchStage Bool}
    (result : Launched run task language server launched after)
    (atStart : run.AtStart task language server) : run.bridge.Continues after.bridge := by
  have linked := atStart.listed.continues atStart.found atStart.down atStart.untried launched.1
  cases result with
  | waits blocked => exact linked
  | settles ended short => exact linked
  | synced ended synced =>
    exact linked.trans (Bridge.Expands.unmoved (.syncAll synced)).continues

section Jobs

variable {job : Job} {rest : List Job}

theorem Worked.continues (worked : Worked { run with ready := rest } job after) (tidy : run.Tidy)
    (isReady : run.ready = job :: rest) : run.bridge.Continues after.bridge := by
  cases worked with
  | begun joins turn => exact (turn.expands tidy.listed).continues
  | withheld joins cancelled ends => exact ends.expands.continues
  | @launch task language server after launched =>
    have speaking := (tidy.launch isReady).speaking
    have continued := launched.continues speaking
    exact ⟨continued.config, continued.root, continued.verdict⟩
  | relaunched held launched => exact launched.continues (tidy.relaunch isReady held)
  | resumed held other meant turn => exact (turn.expands tidy.listed).continues
  | abandoned held ends => exact ends.expands.continues
  | ignored idle => exact .refl _
  | stopped held stops => exact absurd (tidy.launching.ordinary _ _ held) stops
  | forgotten language => exact .refl _
  | relayed other outcome => exact .refl _
  | noted notes => exact (Bridge.Expands.unmoved notes.unmoved.bridge).continues
  | woken notes => exact (Bridge.Expands.unmoved notes.unmoved.bridge).continues

end Jobs

/-! ### Events -/

theorem expands_taking (run : Run) (command : BridgeCommand) :
    run.bridge.Expands (run.taking command).bridge := by
  have entered := Bridge.Expands.unmoved (run.unmoved_taking command).bridge
  exact ⟨entered.config, entered.root, entered.current, entered.created, entered.standing,
    entered.effects⟩

theorem Acted.continues {event : BridgeEvent} (acted : Acted run event after) (tidy : run.Tidy) :
    run.bridge.Continues after.bridge := by
  cases acted with
  | @entered command after issues turn =>
    have taken := run.expands_taking command
    exact (taken.trans (turn.expands (tidy.taking command).listed)).continues
  | worked isReady worked => exact worked.continues tidy isReady
  | freed key task reply => exact .refl _
  | prepared peer call replies => exact ⟨rfl, rfl, fun _ _ => id⟩
  | withdrawn withdrawn =>
    rw [bridge_withdraw? withdrawn]
    exact .refl _
  | unchanged outside => exact .refl _

end Run

end LanguageBridge
