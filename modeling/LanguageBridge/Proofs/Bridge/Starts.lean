import LanguageBridge.Proofs.Bridge.Tasks

namespace LanguageBridge

/-! Starting child servers: what a start can rely on, and what it leaves behind. -/

namespace Run

/-- What a task has got the run to. -/
structure Goes (confined : Prop) (kind : Effect → Prop) (before after : Run) : Prop where
  sound : after.Sound confined
  settled : after.Settled
  effects : before.bridge.wire.Adds kind after.bridge.wire

variable {confined : Prop} {run before middle after : Run} {kind : Effect → Prop} {task : Nat}

theorem Goes.preceded (goes : Goes confined kind middle after)
    (effects : before.bridge.wire.Adds kind middle.bridge.wire) : Goes confined kind before after :=
  ⟨goes.sound, goes.settled, effects.trans goes.effects⟩

theorem Goes.mono {other : Effect → Prop} (weaker : ∀ effect, kind effect → other effect)
    (goes : Goes confined kind before after) : Goes confined other before after :=
  { goes with effects := goes.effects.mono weaker }

/-! ### Ending and blocking a task -/

theorem Sound.erase (sound : run.Sound confined) (task : Nat) (finished : Table Nat Outcome) :
    ({ run with tasks := run.tasks.erase task, finished := finished } : Run).Sound confined :=
  sound.retask rfl rfl rfl rfl (fun _ => rfl) fun _ _ held => Or.inl (Table.of_get?_erase held).2

theorem Sound.finish (sound : run.Sound confined) (task : Nat) (outcome : Outcome) :
    (run.finish task outcome).Sound confined :=
  sound.erase task _

theorem get?_finish {other : Nat} (different : other ≠ task) (outcome : Outcome) :
    (run.finish task outcome).tasks.get? other = run.tasks.get? other := by
  rw [Run.finish, Table.get?_erase, if_neg different]

theorem get?_block {other : Nat} (different : other ≠ task) (activity : Activity) :
    (run.block task activity).tasks.get? other = run.tasks.get? other := by
  rw [Run.block, Table.get?_put, if_neg different]

/-! ### Queueing a start -/

theorem OneStart.queueLaunch (starts : run.OneStart) {language : String}
    (unasked : run.startUps.get? language = none) (server : Nat) :
    (run.queueLaunch language server).OneStart := by
  have different : ∀ wanted, (run.startUps.get? wanted).isSome → wanted ≠ language := by
    rintro wanted known rfl
    rw [unasked] at known
    contradiction
  refine starts.extend (by simp [Run.queueLaunch, Run.enqueue, Job.start?])
    (by simp : [language].Nodup) ?_ ?_ ?_
  · intro wanted known
    simp only [Run.queueLaunch, Run.enqueue, Table.get?_put, if_neg (different wanted known)]
    exact known
  · intro wanted isLanguage
    rw [List.mem_singleton.mp isLanguage]
    refine ⟨fun queued => different language (starts.known language queued) rfl, ?_⟩
    simp [Run.queueLaunch, Run.enqueue, Table.get?_put]
  · intro task wanted wantedServer stage held
    have known := (starts.begun task wanted wantedServer stage held).known
    exact ⟨held, fun isLanguage => different wanted known (List.mem_singleton.mp isLanguage)⟩

theorem queueLaunch_refers {language : String} {server : Nat}
    (referred : (run.queueLaunch language server).Refers task) :
    run.Refers task ∨ task = run.nextTask := by
  refine (referred.of_queued rfl rfl).imp_right ?_
  rintro ⟨job, member, named⟩
  rw [List.mem_singleton.mp member] at named
  exact (Option.some.inj named).symm

theorem Sound.next_free (sound : run.Sound confined) : run.tasks.get? run.nextTask = none := by
  cases held : run.tasks.get? run.nextTask with
  | none => rfl
  | some activity => exact absurd (sound.tasks _ activity held).1 (Nat.lt_irrefl _)

theorem Sound.queueLaunch (sound : run.Sound confined) {language : String} {server : Nat}
    (found : run.bridge.current.get? language = some server)
    (unasked : run.startUps.get? language = none) :
    (run.queueLaunch language server).Sound confined := by
  refine ⟨sound.bridge, ?_, ?_, ?_, ?_, sound.starts.queueLaunch unasked server⟩
  · intro task activity held
    obtain ⟨below, fits⟩ := sound.tasks task activity held
    exact ⟨Nat.lt_succ_of_lt below, fits⟩
  · intro job member
    rcases List.mem_append.mp member with old | new
    · exact sound.jobs job old
    · rw [List.mem_singleton.mp new]
      exact found
  · intro task referred
    rcases queueLaunch_refers referred with old | rfl
    · obtain ⟨below, unbound⟩ := sound.unbound task old
      exact ⟨Nat.lt_succ_of_lt below, unbound⟩
    · exact ⟨Nat.lt_succ_self _, by simp [Run.queueLaunch, Run.enqueue, sound.next_free]⟩
  · intro wanted startUp fault wantedFound settled
    rcases Table.of_get?_put wantedFound with ⟨rfl, rfl⟩ | ⟨_, old⟩
    · contradiction
    · exact sound.faults wanted startUp fault old settled

/-! ### The start itself -/

section Launch

variable {language : String} {server : Nat}

theorem Begun.other_language (begun : run.Begun task language) {other : Nat} {wanted : String}
    {stage : LaunchStage}
    (held : (run.tasks.erase task).get? other = some (.launching wanted server stage)) :
    wanted ≠ language := by
  rintro rfl
  obtain ⟨different, old⟩ := Table.of_get?_erase held
  exact different (begun.only other server stage old)

/-- While a task works on a start, its own state is open. -/
theorem Sound.relink (sound : run.Sound confined) (begun : run.Begun task language) {bridge : Bridge}
    (keeps : run.bridge.Keeps kind bridge)
    (states : ∀ wanted, wanted ≠ language → Bridge.SameState wanted run.bridge bridge) :
    ({ run.setBridge bridge with tasks := run.tasks.erase task } : Run).Sound confined := by
  refine (sound.erase task run.finished).setBridge keeps.sound keeps.root keeps.current
    fun other wanted wantedServer stage held => states wanted (begun.other_language held)

theorem hold_cases {key : Option String} {own activity : Activity} {other : Nat}
    (held : (run.hold task key own).tasks.get? other = some activity) :
    other = task ∧ activity = own ∨ (run.tasks.erase task).get? other = some activity := by
  rcases Table.of_get?_put held with own | ⟨different, old⟩
  · exact Or.inl own
  · rw [Table.get?_erase, if_neg different]
    exact Or.inr old

theorem OneStart.hold (starts : ({ run with tasks := run.tasks.erase task } : Run).OneStart)
    (begun : run.Begun task language) (stage : LaunchStage) (key : Option String) :
    (run.hold task key (.launching language server stage)).OneStart := by
  refine ⟨starts.once, starts.known, ?_⟩
  intro other wanted wantedServer wantedStage held
  rcases hold_cases held with ⟨rfl, isOwn⟩ | old
  · cases isOwn
    refine ⟨begun.unqueued, begun.known, fun third thirdServer thirdStage thirdHeld => ?_⟩
    rcases hold_cases thirdHeld with ⟨same, _⟩ | thirdOld
    · exact same
    · exact absurd rfl (begun.other_language thirdOld)
  · have wantedBegun := starts.begun other wanted wantedServer wantedStage old
    refine ⟨wantedBegun.unqueued, wantedBegun.known, fun third thirdServer thirdStage thirdHeld => ?_⟩
    -- the held task starts another language than the rest
    rcases hold_cases thirdHeld with ⟨_, isOwn⟩ | thirdOld
    · cases isOwn
      exact absurd rfl (begun.other_language old)
    · exact wantedBegun.only third thirdServer thirdStage thirdOld

theorem Sound.holdLaunch (sound : ({ run with tasks := run.tasks.erase task } : Run).Sound confined)
    (begun : run.Begun task language) (below : task < run.nextTask) {stage : LaunchStage}
    (fits : (Activity.launching language server stage).Fits confined run.bridge)
    (key : Option String) : (run.hold task key (.launching language server stage)).Sound confined := by
  refine ⟨sound.bridge, ?_, sound.jobs, ?_, sound.faults, sound.starts.hold begun stage key⟩
  · intro other activity held
    rcases hold_cases held with ⟨rfl, rfl⟩ | old
    · exact ⟨below, fits⟩
    · exact sound.tasks other activity old
  · intro other referred
    obtain ⟨otherBelow, unbound⟩ := sound.unbound other referred
    refine ⟨otherBelow, fun host awaited rest held => ?_⟩
    rcases hold_cases held with ⟨_, launching⟩ | old
    · contradiction
    · exact unbound host awaited rest old

theorem OneStart.settle (starts : ({ run with tasks := run.tasks.erase task } : Run).OneStart)
    (begun : run.Begun task language) (outcome : Except Fault Bool) :
    (run.settle task language outcome).OneStart := by
  have known : ∀ wanted, (run.startUps.get? wanted).isSome →
      ((run.settle task language outcome).startUps.get? wanted).isSome := by
    intro wanted isKnown
    simp only [Run.settle, Run.enqueue, Table.get?_adjust]
    split
    · rename_i same
      rw [Option.isSome_map, ← same]
      exact isKnown
    · exact isKnown
  refine starts.extend ?_ (by simp : [language].Nodup) known ?_ ?_
  · simp [Run.settle, Run.enqueue, Job.start?, List.filterMap_map, Function.comp_def]
  · intro wanted isLanguage
    rw [List.mem_singleton.mp isLanguage]
    exact ⟨begun.unqueued, known language begun.known⟩
  · intro other wanted wantedServer stage held
    exact ⟨held, fun isLanguage =>
      begun.other_language held (List.mem_singleton.mp isLanguage)⟩

theorem Sound.settle (sound : ({ run with tasks := run.tasks.erase task } : Run).Sound confined)
    (begun : run.Begun task language) {outcome : Except Fault Bool}
    (raised : ∀ fault, outcome = .error fault → ¬ Link.RootKnown run.bridge.root) :
    (run.settle task language outcome).Sound confined := by
  refine ⟨sound.bridge, sound.tasks, ?_, ?_, ?_, sound.starts.settle begun outcome⟩
  · intro job member
    simp only [Run.settle, Run.enqueue, List.mem_append, List.mem_cons, List.mem_map] at member
    rcases member with old | rfl | ⟨waiter, _, rfl⟩
    · exact sound.jobs job old
    · trivial
    · cases outcome with
      | ok up => trivial
      | error fault => exact raised fault rfl
  · intro other referred
    refine sound.unbound other ((referred.of_queued rfl rfl).resolve_right ?_)
    rintro ⟨job, member, named⟩
    rcases List.mem_cons.mp member with rfl | relayed
    · cases named
    · obtain ⟨waiter, _, rfl⟩ := List.mem_map.mp relayed
      cases named
  · intro wanted startUp fault found settled
    simp only [Run.settle, Run.enqueue, Table.get?_adjust] at found
    split at found
    · obtain ⟨old, _, rfl⟩ := Option.map_eq_some_iff.mp found
      exact raised fault (Option.some.inj settled)
    · exact sound.faults wanted startUp fault found settled

/-- A start goes on; once the server is up it gets all documents of its language. -/
theorem Launched.goes {launched : Link × Attempt LaunchStage Bool}
    (result : Launched run task language server launched after) (sound : run.Sound confined)
    (settled : run.Settled) (unbound : run.Unbound task) (begun : run.Begun task language)
    (found : run.bridge.current.get? language = some server)
    (launches : (run.bridge.link server).Launches run.bridge.root launched) :
    Goes confined Effect.NoRequest run after := by
  obtain ⟨link, attempt⟩ := launched
  obtain ⟨extended, arrived⟩ := launches
  have states : ∀ wanted, wanted ≠ language →
      Bridge.SameState wanted run.bridge (run.bridge.setLink server link) :=
    fun wanted different => sound.bridge.sameState found fun same => absurd same different
  have linkedBegun : ∀ bridge, (run.setBridge bridge).Begun task language :=
    fun _ => ⟨begun.unqueued, begun.known, begun.only⟩
  have steadily : link.server.started = (run.bridge.link server).server.started →
      run.bridge.Keeps Effect.NoRequest (run.bridge.setLink server link) := fun steady =>
    (sound.bridge.keeps_extends found extended (fun _ => Effect.Plain.quiet) steady).mono
      fun _ => Effect.Plain.noRequest
  have others : ∀ outcome bridge other, other ≠ task →
      ((run.setBridge bridge).settle task language outcome).tasks.get? other =
        run.tasks.get? other := by
    intro outcome bridge other different
    exact (Table.get?_erase _ _ _).trans (if_neg different)
  cases result with
  | @waits key stage blocked =>
    subst blocked
    obtain ⟨waiting, steady⟩ := arrived
    have keeps := steadily steady
    refine ⟨(sound.relink begun keeps states).holdLaunch (linkedBegun _) unbound.1 ⟨found, ?_⟩ key,
      settled.kept unbound keeps fun other different => get?_block different _, keeps.effects⟩
    rw [show (run.setBridge (run.bridge.setLink server link)).bridge.link server = link by
      exact (sound.bridge.link_setLink found found link).trans (if_pos rfl)]
    exact waiting
  | @settles outcome ended short =>
    subst ended
    have ending : link.server.started = (run.bridge.link server).server.started ∧
        ∀ fault, outcome = .error fault → ¬ Link.RootKnown run.bridge.root := by
      cases outcome with
      | error fault => exact ⟨arrived.2, fun _ _ => arrived.1⟩
      | ok up =>
        cases up with
        | false => exact ⟨arrived, fun _ isFault => by cases isFault⟩
        | true => exact absurd rfl short
    have keeps := steadily ending.1
    exact ⟨(sound.relink begun keeps states).settle (linkedBegun _) ending.2,
      settled.kept unbound keeps (others outcome _), keeps.effects⟩
  | synced ended synced =>
    subst ended
    obtain ⟨bridge, isSynced, keeps, otherStates⟩ :=
      sound.bridge.sync_launched found extended arrived
    cases synced.symm.trans isSynced
    refine ⟨(sound.relink begun keeps otherStates).settle (linkedBegun _) ?_,
      settled.kept unbound keeps (others (.ok true) _), keeps.effects⟩
    intro fault isFault
    cases isFault

end Launch

end Run

end LanguageBridge
