import LanguageBridge.Proofs.Bridge.Waiting

namespace LanguageBridge

/-! Whatever happens to a bridge short of a shutdown, its starts and those who wait for them stay in
order. -/

theorem Activity.Plain.fits {activity : Activity} (plain : activity.Plain) (bridge : Bridge) :
    activity.Fits False bridge := by
  cases activity with
  | answering context recipient => exact False.elim
  | _ => trivial

theorem Activity.Plain.unlaunched {activity : Activity} (plain : activity.Plain) :
    activity.launched? = none := by
  cases activity <;> first | rfl | exact plain.elim

theorem Activity.Plain.unawaited {activity : Activity} (plain : activity.Plain) :
    activity.awaited? = none := by
  cases activity <;> first | rfl | exact plain.elim

theorem Activity.unlaunched_of_awaited {activity : Activity} {language : String}
    (awaited : activity.awaited? = some language) : activity.launched? = none := by
  cases activity <;> first | rfl | contradiction

theorem Link.Launches.ended {link : Link} {root : Option String}
    {launched : Link × Attempt LaunchStage Bool} (launches : link.Launches root launched)
    (verdict : Link.Verdict link.marks launched.1 launched.2)
    (down : link.server.started = false) {outcome : Except Fault Bool}
    (isDone : launched.2 = .done outcome) : launched.1.server.Ended root outcome := by
  have arrived := launches.arrived
  rw [isDone] at arrived verdict
  cases outcome with
  | error fault => exact arrived.1
  | ok up =>
    cases up with
    | true => exact congrArg (fun marks => marks.2.1) verdict
    | false =>
      have failed : launched.1.server.failed = true := congrArg (fun marks => marks.2.2) verdict
      exact ⟨arrived.trans down, failed⟩

namespace Run

/-- What is known of the tasks, with some starts in hand. -/
structure Composed (starts : List String) (run : Run) : Prop where
  launching : Launching starts run
  spared : run.Spared
  attended : run.Attended

/-- Between two events no start is in hand, no number of a task is given out twice, and every language
has one child server at most. -/
structure Tidy (run : Run) : Prop extends Composed [] run where
  numbered : run.Numbered
  listed : run.bridge.Listed

/-- The same while a task takes its turn. -/
structure AtWork (task : Nat) (run : Run) : Prop extends Composed [] (run.without task) where
  inHand : run.InHand task
  listed : run.bridge.Listed
  unexpected : task ∉ run.expecting

variable {run middle after : Run} {task : Nat} {errand : Errand} {language : String}
  {server : Nat}

theorem Unmoved.without (unmoved : run.Unmoved after) (task : Nat) :
    (run.without task).Unmoved (after.without task) where
  bridge := unmoved.bridge
  startUps := unmoved.startUps
  tasks := by simp only [Run.without, unmoved.tasks]
  ready := unmoved.ready
  nextTask := unmoved.nextTask
  finished := unmoved.finished
  groups := unmoved.groups

theorem Composed.unmoved {starts : List String} (composed : Composed starts run)
    (unmoved : run.Unmoved after) :
    Composed starts after where
  launching := composed.launching.unmoved unmoved
  spared := composed.spared.congr unmoved.nextTask unmoved.tasks unmoved.ready unmoved.groups
  attended := composed.attended.kept unmoved.bridge.grows.keepsEnds unmoved.startUps unmoved.tasks
    unmoved.ready (Nat.le_of_eq unmoved.nextTask.symm)

theorem Unmoved.expecting (unmoved : run.Unmoved after) : after.expecting = run.expecting := by
  rw [Run.expecting, unmoved.startUps, unmoved.ready, Run.expecting]

theorem Tidy.unmoved (tidy : run.Tidy) (unmoved : run.Unmoved after) : after.Tidy where
  toComposed := tidy.toComposed.unmoved unmoved
  numbered := tidy.numbered.congr unmoved.tasks unmoved.ready unmoved.nextTask
  listed := unmoved.bridge.listed tidy.listed

theorem Tidy.finish (tidy : run.Tidy) {finished : Table Nat Outcome} :
    ({ run with finished := finished } : Run).Tidy where
  numbered := tidy.numbered.congr rfl rfl rfl
  listed := tidy.listed
  launching := tidy.launching.kept (Bridge.Unmoved.refl _).grows rfl rfl rfl
  spared := tidy.spared.congr rfl rfl rfl (Unmoved.refl run).groups
  attended := tidy.attended.kept (.refl _) rfl rfl rfl (Nat.le_refl _)

theorem Tidy.enqueue (tidy : run.Tidy) {job : Job} (unstarted : job.start? = none)
    (unbegun : job.begins? = none) (untold : job.told? = none)
    (uncancelled : ∀ task, job ≠ .resume task .cancelled) : (run.enqueue [job]).Tidy where
  numbered := tidy.numbered.enqueue (by simp [unbegun])
  listed := tidy.listed
  launching := tidy.launching.enqueue (by simpa using unstarted)
  spared := by
    refine tidy.spared.enqueue (fun task language server member => ?_) fun task member => ?_
    · rw [← List.mem_singleton.mp member] at unstarted
      contradiction
    · exact uncancelled task (List.mem_singleton.mp member).symm
  attended := tidy.attended.enqueue (by simpa using untold) (by simpa using unbegun)

namespace AtWork

theorem begun (atWork : run.AtWork task) : task ∉ run.ready.filterMap Job.begins? :=
  fun member => (List.nodup_cons.mp atWork.inHand.once).1 (List.mem_append_right _ member)

theorem unmoved (atWork : run.AtWork task) (unmoved : run.Unmoved after) : after.AtWork task where
  toComposed := atWork.toComposed.unmoved (unmoved.without task)
  inHand := atWork.inHand.congr unmoved.tasks unmoved.ready unmoved.nextTask
  listed := unmoved.bridge.listed atWork.listed
  unexpected := unmoved.expecting ▸ atWork.unexpected

theorem create (atWork : run.AtWork task) (unknown : run.bridge.current.get? language = none)
    (command : List String) :
    (run.setBridge (run.bridge.addServer language command)).AtWork task := by
  have grows : run.bridge.Grows [] (run.bridge.addServer language command) :=
    atWork.listed.grows_addServer unknown command
  exact
    { inHand := atWork.inHand.congr rfl rfl rfl
      listed := atWork.listed.addServer unknown command
      launching := atWork.launching.kept grows rfl rfl rfl
      spared := atWork.spared
      attended := atWork.attended.kept grows.keepsEnds rfl rfl rfl (Nat.le_refl _)
      unexpected := atWork.unexpected }

theorem launch (atWork : run.AtWork task)
    (found : run.bridge.current.get? language = some server)
    (down : (run.bridge.link server).server.started = false)
    (untried : (run.bridge.link server).server.failed = false)
    (first : run.startUps.get? language = none) : (run.queueLaunch language server).AtWork task where
  inHand := atWork.inHand.queueLaunch language server
  listed := atWork.listed
  launching := atWork.launching.queueLaunch found down untried first
  spared := atWork.spared.queueLaunch language server
  attended := atWork.attended.queueLaunch first server
  unexpected := by
    have same : (run.queueLaunch language server).expecting = run.expecting := by
      simp only [expecting, Run.queueLaunch, Run.enqueue, Table.gather_put _ first]
      simp [StartUp.audience, Job.told?]
    rw [same]
    exact atWork.unexpected

theorem ended (atWork : run.AtWork task) : (run.without task).Tidy where
  toComposed := atWork.toComposed
  numbered := atWork.inHand.ended
  listed := atWork.listed

theorem launching_block (atWork : run.AtWork task) {activity : Activity}
    (fits : activity.Fits False run.bridge) (unlaunched : activity.launched? = none) :
    Launching [] (run.block task activity) := by
  refine Launching.block ?_ atWork.inHand.distinct fits fun language server launched => ?_
  · rw [unlaunched]
    exact atWork.launching
  · rw [unlaunched] at launched
    contradiction

theorem blocked (atWork : run.AtWork task) {activity : Activity}
    (fits : activity.Fits False run.bridge) (unlaunched : activity.launched? = none)
    (unawaited : activity.awaited? = none) : (run.block task activity).Tidy where
  numbered := atWork.inHand.blocked activity
  listed := atWork.listed
  launching := atWork.launching_block fits unlaunched
  spared := atWork.spared.block (Or.inl unlaunched)
  attended := atWork.attended.block atWork.unexpected unawaited

theorem awaits (atWork : run.AtWork task) {activity : Activity}
    (awaited : activity.awaited? = some language) {startUp : StartUp}
    (found : run.startUps.get? language = some startUp) (unsettled : startUp.settled = none)
    (fits : activity.Fits False run.bridge) : (run.await task language activity).Tidy where
  numbered := (atWork.inHand.blocked activity).congr rfl rfl rfl
  listed := atWork.listed
  launching := by
    have blocked := atWork.launching_block fits (Activity.unlaunched_of_awaited awaited)
    have unseen : (run.await task language activity).starts = run.starts := by
      refine Table.mapValues_adjust_unseen ?_ run.startUps language
      exact fun _ => rfl
    exact blocked.kept (Bridge.Unmoved.refl _).grows unseen rfl rfl
  spared := (atWork.spared.block (Or.inl (Activity.unlaunched_of_awaited awaited))).congr rfl rfl rfl
    fun _ group known => ⟨group, known, rfl⟩
  attended := atWork.attended.await atWork.unexpected (atWork.inHand.below _ List.mem_cons_self)
    atWork.begun awaited found unsettled

theorem split (atWork : run.AtWork task) (purpose : Purpose) (count : Nat) {job : Nat → Nat → Job}
    (joins : ∀ index, index < count →
      (job (run.nextTask + index) index).Joins task (run.nextTask + index)) :
    (run.split task purpose count job).Tidy where
  numbered := atWork.inHand.split purpose count joins
  listed := atWork.listed
  launching := by
    have blocked : Launching [] (run.block task .gathering) := atWork.launching_block trivial rfl
    have queued : Launching [] ((run.block task .gathering).enqueue
        ((List.range count).map fun index => job (run.nextTask + index) index)) := by
      refine blocked.enqueue fun other member => ?_
      obtain ⟨index, within, rfl⟩ := List.mem_map.mp member
      exact (joins index (List.mem_range.mp within)).unstarted
    exact queued.kept (Bridge.Unmoved.refl _).grows rfl rfl rfl
  spared := atWork.spared.split atWork.inHand purpose count joins
  attended := by
    have blocked : (run.block task .gathering).Tidy := atWork.blocked trivial rfl rfl
    refine blocked.attended.extend (.refl _) rfl (fun _ _ => id) rfl (Nat.le_add_right _ _) ?_ ?_
    · intro other member
      obtain ⟨index, within, rfl⟩ := List.mem_map.mp member
      exact (joins index (List.mem_range.mp within)).untold
    · intro other member begun begins
      obtain ⟨index, within, rfl⟩ := List.mem_map.mp member
      rw [(joins index (List.mem_range.mp within)).begins] at begins
      cases begins
      exact Nat.le_add_right _ _

end AtWork

/-! ### Turns -/

theorem Ends.tidy (ends : Ends task errand run after) (others : (run.without task).Tidy) :
    after.Tidy := by
  induction ends with
  | drop left memory next ih =>
    refine ih ⟨⟨?_, others.spared, ?_⟩, others.numbered.congr rfl rfl rfl,
      ⟨others.listed.placed, others.listed.listed⟩⟩
    · exact others.launching.kept ⟨rfl, fun _ _ => id, fun _ _ _ _ => rfl⟩ rfl rfl rfl
    · exact others.attended.kept ⟨fun _ _ => id, fun _ _ _ _ => id⟩ rfl rfl rfl (Nat.le_refl _)
  | finish run none outcome => exact others.finish
  | report run parent index outcome =>
    exact others.enqueue rfl rfl rfl fun _ other => nomatch other

theorem Turn.tidy (turn : Turn task errand run after) (atWork : run.AtWork task) : after.Tidy := by
  induction turn with
  | move move next ih => exact ih (atWork.unmoved move.unmoved)
  | create unknown configured next ih => exact ih (atWork.create unknown _)
  | launch found down untried first next ih => exact ih (atWork.launch found down untried first)
  | ends relieved ends => exact ends.tidy atWork.ended
  | hold run key holds =>
    have plain := holds.plain
    have blocked := atWork.blocked (plain.fits run.bridge) plain.unlaunched plain.unawaited
    exact blocked.unmoved ⟨.refl _, rfl, rfl, rfl, rfl, rfl, (Unmoved.refl run).groups⟩
  | await awaits current down found unsettled =>
    refine atWork.awaits awaits.awaited found unsettled ?_
    cases awaits with
    | request context recipient chosen server => exact ⟨False.elim, current⟩
    | _ => trivial
  | split relieved joins requests searched => exact atWork.split _ _ joins

/-! ### Starts -/

/-- The start of a child server that has not been tried before is in the hands of a task. -/
structure AtStart (task : Nat) (language : String) (server : Nat) (run : Run) : Prop
    extends Composed [language] (run.without task) where
  inHand : run.InHand task
  listed : run.bridge.Listed
  unexposed : ¬ run.Exposed task
  unexpected : task ∉ run.expecting
  found : run.bridge.current.get? language = some server
  down : (run.bridge.link server).server.started = false
  untried : (run.bridge.link server).server.failed = false

section

variable (atStart : run.AtStart task language server)
include atStart

theorem AtStart.unmoved (unmoved : run.Unmoved after) :
    after.AtStart task language server where
  toComposed := atStart.toComposed.unmoved (unmoved.without task)
  inHand := atStart.inHand.congr unmoved.tasks unmoved.ready unmoved.nextTask
  listed := unmoved.bridge.listed atStart.listed
  unexposed := fun exposed => atStart.unexposed (exposed.earlier unmoved.ready unmoved.groups)
  unexpected := unmoved.expecting ▸ atStart.unexpected
  found := unmoved.bridge.current ▸ atStart.found
  down := (congrArg Standing.started (unmoved.bridge.standing server)).trans atStart.down
  untried := (congrArg Standing.failed (unmoved.bridge.standing server)).trans atStart.untried

/-- Whoever speaks for the language from now on does not matter. -/
theorem AtStart.speaking :
    (run.setBridge { run.bridge with
        speakers := run.bridge.speakers.put (run.bridge.link server).server.language
          server }).AtStart task language server :=
  atStart.unmoved (.setBridge ⟨rfl, rfl, rfl, rfl, rfl, .refl _⟩)

/-- Nothing is known yet of the server at work. -/
theorem AtStart.working {bridge : Bridge} (grows : run.bridge.Grows [language] bridge) :
    Composed [language] ((run.setBridge bridge).without task) where
  launching := atStart.launching.kept grows rfl rfl rfl
  spared := atStart.spared
  attended := atStart.attended.kept
    (grows.keepsEnds_of_fresh atStart.found atStart.down atStart.untried) rfl rfl rfl (Nat.le_refl _)

theorem AtStart.waits {link : Link} (marks : link.marks = (run.bridge.link server).marks)
    {stage : LaunchStage} (waiting : link.Waiting run.bridge.root stage) :
    ((run.setBridge (run.bridge.setLink server link)).block task
      (.launching language server stage)).Tidy := by
  let working := run.setBridge (run.bridge.setLink server link)
  obtain ⟨named, started, failed⟩ := Prod.ext_iff.mp marks |>.imp_right Prod.ext_iff.mp
  have linked := atStart.listed.link_setLink_same atStart.found link
  have inHand : working.InHand task := atStart.inHand.congr rfl rfl rfl
  have composed : Composed [language] (working.without task) :=
    atStart.working (atStart.listed.grows_setLink atStart.found link)
  refine ⟨⟨?_, composed.spared.block (Or.inr atStart.unexposed),
    composed.attended.block atStart.unexpected rfl⟩, inHand.blocked _, ?_⟩
  · have isWaiting : ((run.bridge.setLink server link).link server).Waiting run.bridge.root stage := by
      rw [linked]
      exact waiting
    change Launching [] (working.block task (.launching language server stage))
    refine Launching.block ?_ inHand.distinct ⟨atStart.found, isWaiting⟩ ?_
    · exact composed.launching
    intro wanted wantedServer isLaunched isFound
    cases isLaunched
    cases atStart.found.symm.trans isFound
    change ((run.bridge.setLink server link).link server).server.started = false ∧
      ((run.bridge.setLink server link).link server).server.failed = false
    rw [linked]
    exact ⟨started.trans atStart.down, failed.trans atStart.untried⟩
  · exact atStart.listed.setLink atStart.found
      (named.trans (atStart.listed.placed language server atStart.found).2)

theorem AtStart.settles {link : Link} {bridge : Bridge} (named : link.server.language = language)
    {outcome : Except Fault Bool} (ended : link.server.Ended run.bridge.root outcome)
    (unmoved : (run.bridge.setLink server link).Unmoved bridge) :
    ((run.setBridge bridge).settle task language outcome).Tidy := by
  let working := run.setBridge bridge
  have grows := (atStart.listed.grows_setLink atStart.found link).trans unmoved.grows
  have found : working.bridge.current.get? language = some server := grows.current _ _ atStart.found
  have standing := unmoved.standing server
  rw [atStart.listed.link_setLink_same atStart.found link] at standing
  have isEnded : (bridge.link server).server.Ended bridge.root outcome := by
    rw [grows.root]
    exact ended.kept (congrArg Standing.started standing) (congrArg Standing.failed standing)
  have inHand : working.InHand task := atStart.inHand.congr rfl rfl rfl
  have composed : Composed [language] (working.without task) := atStart.working grows
  obtain ⟨listed, onRecord⟩ := composed.launching.found List.mem_cons_self
  rw [starts_get?, Option.map_eq_some_iff] at onRecord
  obtain ⟨startUp, underWay, isState⟩ := onRecord
  refine ⟨⟨composed.launching.settle found isEnded, ?_, composed.attended.settle underWay
    (congrArg Prod.snd isState) found isEnded⟩, inHand.settle language outcome, ?_⟩
  · exact (atStart.spared.enqueue (by simp) (by simp)).congr rfl rfl rfl
      fun _ group known => ⟨group, known, rfl⟩
  · exact unmoved.listed (atStart.listed.setLink atStart.found named)

end

theorem Launched.tidy {launched : Link × Attempt LaunchStage Bool}
    (result : Launched run task language server launched after)
    (atStart : run.AtStart task language server)
    (launches : (run.bridge.link server).Launches run.bridge.root launched)
    (verdict : Link.Verdict (run.bridge.link server).marks launched.1 launched.2)
    (orderly : run.bridge.Orderly) : after.Tidy := by
  have named := launches.extended.language.trans
    (atStart.listed.placed language server atStart.found).2
  have isEnded {outcome : Except Fault Bool} (ended : launched.2 = .done outcome) :=
    launches.ended verdict atStart.down ended
  cases result with
  | @waits key stage blocked =>
    have arrived := launches.arrived
    rw [blocked] at arrived verdict
    have waiting := atStart.waits verdict arrived.1
    exact waiting.unmoved ⟨.refl _, rfl, rfl, rfl, rfl, rfl, (Unmoved.refl run).groups⟩
  | settles ended short => exact atStart.settles named (isEnded ended) (.refl _)
  | @synced bridge result ended synced =>
    cases result with
    | ok done => exact atStart.settles named (isEnded ended) (.syncAll synced)
    | error fault => exact (orderly.synced server _ _ _ synced).elim

/-! ### Jobs -/

section Jobs

variable {job : Job} {rest : List Job}

/-- What the others know while a task takes its turn, if the job was for nobody else. -/
theorem Tidy.others (tidy : run.Tidy) (isReady : run.ready = job :: rest)
    (kept : job.forgotten? = none)
    (mine : ∀ other, job.told? = some other ∨ job = .resume other .cancelled → other = task) :
    Composed (((run.tasks.get? task).bind Activity.launched?).toList ++ job.launched?.toList)
      (({ run with ready := rest } : Run).without task) := by
  refine ⟨(tidy.launching.pop isReady kept).without tidy.numbered.distinct task,
    (tidy.spared.pop isReady).without task, ?_⟩
  have attended : (run.without task).Attended := tidy.attended.without task
  refine attended.pop isReady ?_
  intro other activity language held awaited
  have different : other ≠ task := by
    rintro rfl
    simp [Run.without, Table.get?_erase] at held
  exact ⟨fun told => different (mine other (Or.inl told)),
    fun cancelled => different (mine other (Or.inr cancelled))⟩

theorem expecting_told (isReady : run.ready = job :: rest) (told : job.told? = some task) :
    run.expecting.Perm (task :: ({ run with ready := rest } : Run).expecting) := by
  rw [Run.expecting, Run.expecting, isReady, List.filterMap_cons_some told]
  exact List.perm_middle

theorem Tidy.pop (tidy : run.Tidy) (isReady : run.ready = job :: rest)
    (unstarted : job.start? = none)
    (missed : ∀ task activity language, run.tasks.get? task = some activity →
      activity.awaited? = some language →
        job.told? ≠ some task ∧ job ≠ .resume task .cancelled) :
    ({ run with ready := rest } : Run).Tidy where
  numbered := (tidy.numbered.pop isReady).1
  listed := tidy.listed
  launching := by
    have popped : Launching job.launched?.toList { run with ready := rest } := by
      refine tidy.launching.pop isReady ?_
      cases job <;> first | rfl | contradiction
    have none : job.launched? = none := by
      cases job <;> first | rfl | contradiction
    rw [none] at popped
    exact popped
  spared := tidy.spared.pop isReady
  attended := tidy.attended.pop isReady missed

theorem Tidy.begin (tidy : run.Tidy) (isReady : run.ready = job :: rest) {parent : Nat}
    (joins : job.Joins parent task) : ({ run with ready := rest } : Run).AtWork task := by
  have begins : task ∈ run.ready.filterMap Job.begins? := by
    rw [isReady]
    exact List.mem_filterMap.mpr ⟨job, List.mem_cons_self, joins.begins⟩
  have kept : job.forgotten? = none := by
    cases job <;> first | rfl | exact joins.elim
  have mine : ∀ other, job.told? = some other ∨ job = .resume other .cancelled → other = task := by
    rintro other (told | rfl)
    · rw [joins.untold] at told
      contradiction
    · exact joins.elim
  have composed := tidy.others isReady kept mine
  have none : job.launched? = none := by
    cases job <;> first | rfl | exact joins.elim
  rw [tidy.numbered.absent begins, none] at composed
  refine ⟨composed, (tidy.numbered.pop isReady).2 task joins.begins, tidy.listed, ?_⟩
  · intro expected
    exact (tidy.attended.known task ((expecting_pop isReady).subset expected)).2 begins

/-- What else is known when a task that starts a child server takes its turn. -/
theorem Tidy.start (tidy : run.Tidy) (isReady : run.ready = job :: rest)
    (starts : run.Starts task) (found : run.bridge.current.get? language = some server)
    (inHand : ({ run with ready := rest } : Run).InHand task)
    (composed : Composed [language] (({ run with ready := rest } : Run).without task))
    (unexpected : task ∉ run.expecting) :
    ({ run with ready := rest } : Run).AtStart task language server := by
  obtain ⟨listed, underWay⟩ := composed.launching.found List.mem_cons_self
  obtain rfl : server = listed :=
    Option.some.inj (found.symm.trans (tidy.launching.server language _ underWay))
  obtain ⟨down, untried⟩ := tidy.launching.fresh language server underWay List.not_mem_nil
  refine ⟨composed, inHand, tidy.listed, ?_, ?_, found, down, untried⟩
  · rintro (queued | member)
    · exact (tidy.spared task (Or.inl (isReady ▸ List.mem_cons_of_mem job queued))).2 starts
    · exact (tidy.spared task (Or.inr member)).2 starts
  · exact fun expected => unexpected ((expecting_pop isReady).subset expected)

theorem Tidy.launch (tidy : run.Tidy) (isReady : run.ready = .launch task language server :: rest) :
    ({ run with ready := rest } : Run).AtStart task language server := by
  have queued : .launch task language server ∈ run.ready := isReady ▸ List.mem_cons_self
  have begins : task ∈ run.ready.filterMap Job.begins? := List.mem_filterMap.mpr ⟨_, queued, rfl⟩
  have mine : ∀ other, (Job.launch task language server).told? = some other ∨
      Job.launch task language server = .resume other .cancelled → other = task := by
    rintro other (told | cancelled) <;> contradiction
  have composed := tidy.others isReady rfl mine
  rw [tidy.numbered.absent begins] at composed
  exact tidy.start isReady (Or.inl ⟨language, server, queued⟩)
    (tidy.launching.queued task language server queued) ((tidy.numbered.pop isReady).2 task rfl)
    composed fun expected => (tidy.attended.known task expected).2 begins

theorem Tidy.relaunch (tidy : run.Tidy) {stage : LaunchStage} {reply : Reply}
    (isReady : run.ready = .resume task (.reply reply) :: rest)
    (held : run.tasks.get? task = some (.launching language server stage)) :
    ({ run with ready := rest } : Run).AtStart task language server := by
  have mine : ∀ other, (Job.resume task (.reply reply)).told? = some other ∨
      Job.resume task (.reply reply) = .resume other .cancelled → other = task := by
    rintro other (told | cancelled)
    · cases told
    · cases cancelled
  have composed := tidy.others isReady rfl mine
  rw [held] at composed
  exact tidy.start isReady (Or.inr ⟨_, held, nofun⟩) (tidy.launching.tasks task _ held).1
    ((tidy.numbered.pop isReady).1.held held) composed
    (tidy.attended.unexpected held rfl)

theorem Tidy.resume (tidy : run.Tidy) {signal : Signal} {activity : Activity}
    (isReady : run.ready = .resume task signal :: rest)
    (held : run.tasks.get? task = some activity) (unlaunched : activity.launched? = none) :
    Composed [] (({ run with ready := rest } : Run).without task) := by
  have mine : ∀ other, (Job.resume task signal).told? = some other ∨
      Job.resume task signal = .resume other .cancelled → other = task := by
    rintro other (told | cancelled)
    · cases signal with
      | started outcome =>
        cases told
        rfl
      | _ => contradiction
    · cases cancelled
      rfl
  have others := tidy.others isReady rfl mine
  rw [held, Option.bind_some, unlaunched] at others
  exact others

/-- Nobody waits for what is passed over. -/
theorem Tidy.ignore (tidy : run.Tidy) {signal : Signal}
    (isReady : run.ready = .resume task signal :: rest)
    (idle : ∀ activity, run.tasks.get? task = some activity → signal ≠ .cancelled ∧
      (activity.awaited? = none ∨ ∀ outcome, signal ≠ .started outcome)) :
    ({ run with ready := rest } : Run).Tidy := by
  refine tidy.pop isReady rfl fun other activity language held awaited => ⟨?_, ?_⟩
  · intro told
    cases signal with
    | started outcome =>
      cases told
      rcases (idle activity held).2 with unawaited | other
      · cases awaited.symm.trans unawaited
      · exact other outcome rfl
    | _ => contradiction
  · intro cancelled
    cases cancelled
    exact (idle activity held).1 rfl

theorem Tidy.report (tidy : run.Tidy) {parent index : Nat} {outcome : Outcome}
    (isReady : run.ready = .report parent index outcome :: rest) :
    ({ run with ready := rest } : Run).Tidy :=
  tidy.pop isReady rfl fun _ _ _ _ _ => ⟨by simp [Job.told?], by simp⟩

/-- A start that is forgotten is over, so nobody waits for it any more. -/
theorem Tidy.forget (tidy : run.Tidy) (isReady : run.ready = .forget language :: rest) :
    ({ run with ready := rest, startUps := run.startUps.erase language } : Run).Tidy := by
  have isOver : language ∈ run.ended := tidy.launching.forgotten.mem_iff.mp
    (List.mem_filterMap.mpr ⟨_, isReady ▸ List.mem_cons_self, rfl⟩)
  obtain ⟨server, outcome, onRecord⟩ := (mem_ended tidy.launching.distinct).mp isOver
  rw [starts_get?, Option.map_eq_some_iff] at onRecord
  obtain ⟨startUp, found, isState⟩ := onRecord
  have settled : startUp.settled = some outcome := congrArg Prod.snd isState
  have popped : ({ run with ready := rest } : Run).Attended :=
    tidy.attended.pop isReady fun _ _ _ _ _ => ⟨by simp [Job.told?], by simp⟩
  exact ⟨⟨tidy.launching.forget isReady, tidy.spared.pop isReady,
    popped.forget found (by simp [settled])⟩, (tidy.numbered.pop isReady).1.congr rfl rfl rfl,
    tidy.listed⟩

theorem Worked.tidy (worked : Worked { run with ready := rest } job after) (tidy : run.Tidy)
    (orderly : run.bridge.Orderly) (isReady : run.ready = job :: rest) : after.Tidy := by
  cases worked with
  | begun joins turn => exact turn.tidy (tidy.begin isReady joins)
  | withheld joins cancelled ends => exact ends.tidy (tidy.begin isReady joins).ended
  | @launch task language server after launched =>
    have speaking := (tidy.launch isReady).speaking
    exact launched.tidy speaking
      (Link.start_launches fun up => by cases speaking.down.symm.trans up) (Link.start_verdict _ _)
      ⟨orderly.store, orderly.diagnostics⟩
  | @relaunched task language server stage reply after held launched =>
    have atStart := tidy.relaunch isReady held
    exact launched.tidy atStart
      (Link.resumeStart_launches (tidy.launching.tasks task _ held).2 reply)
      (Link.Ventures.resumeStart _ stage reply).verdict orderly
  | @resumed task activity signal after held other meant turn =>
    refine turn.tidy ⟨tidy.resume isReady held other, (tidy.numbered.pop isReady).1.held held,
      tidy.listed, ?_⟩
    rcases meant with unawaited | ⟨outcome, rfl⟩
    · exact fun expected =>
        tidy.attended.unexpected held unawaited ((expecting_pop isReady).subset expected)
    · have once := (expecting_told isReady rfl).nodup_iff.mp tidy.attended.once
      exact (List.nodup_cons.mp once).1
  | @abandoned task activity after held ends =>
    have exposed : run.Exposed task := Or.inl (isReady ▸ List.mem_cons_self)
    have unlaunched : activity.launched? = none := by
      by_contra launched
      exact (tidy.spared task exposed).2 (Or.inr ⟨activity, held, launched⟩)
    exact ends.tidy ⟨tidy.resume isReady held unlaunched,
      ((tidy.numbered.pop isReady).1.held held).ended, tidy.listed⟩
  | ignored idle => exact tidy.ignore isReady idle
  | stopped held stops => exact absurd (tidy.launching.ordinary _ _ held) stops
  | forgotten language => exact tidy.forget isReady
  | relayed task outcome =>
    exact ⟨⟨(tidy.launching.pop isReady rfl).enqueue (by simp [Job.start?]),
      (tidy.spared.pop isReady).enqueue (by simp) (by simp), tidy.attended.relay isReady⟩,
      (tidy.numbered.pop isReady).1.enqueue rfl, tidy.listed⟩
  | noted notes => exact (tidy.report isReady).unmoved notes.unmoved
  | woken notes =>
    exact ((tidy.report isReady).unmoved notes.unmoved).enqueue rfl rfl rfl
      fun _ other => by cases other

end Jobs

/-! ### Events -/

/-- Anything but a shutdown; those who start a child server are not cancelled. -/
def LetsStart (run : Run) : BridgeEvent → Prop
  | .command .shutdown => False
  | .cancel task => ∀ activity, run.tasks.get? task = some activity → activity.launched? = none
  | _ => True

/-- What an event can come to. -/
inductive Acted (run : Run) : BridgeEvent → Run → Prop where
  | entered {command : BridgeCommand} {after : Run}
      (issues : run.bridge.router.pending.Issues (run.issued (.command command))
        (run.taking command).bridge.router.pending)
      (turn : Turn run.nextTask (run.errandOf command) (run.taking command) after) :
      Acted run (.command command) after
  | worked {job : Job} {rest : List Job} {after : Run} (isReady : run.ready = job :: rest)
      (worked : Worked { run with ready := rest } job after) : Acted run .step after
  | freed (key : String) (task : Nat) (reply : Reply) :
      Acted run (.reply key reply)
        (({ run with held := run.held.erase key } : Run).enqueue [.resume task (.reply reply)])
  | prepared (peer : Peer) (call : Call) (replies : List Reply) :
      Acted run (.prepare peer call replies) (run.prepare peer call replies)
  | withdrawn {task : Nat} {after : Run} (withdrawn : run.withdraw? task = some after) :
      Acted run (.cancel task) after
  | unchanged {event : BridgeEvent} (outside : ∀ command, event ≠ .command command) :
      Acted run event run

theorem acted_act (orderly : run.bridge.Orderly) {event : BridgeEvent}
    (letsStart : run.LetsStart event) : Acted run event (run.act event) := by
  cases event with
  | command command =>
    have running : command ≠ .shutdown := by
      rintro rfl
      exact letsStart
    exact .entered (taking_issues orderly command) (run.turn_enter running)
  | step =>
    change Acted run .step (run.step?.getD run)
    unfold step?
    split
    · exact .unchanged fun _ other => nomatch other
    · rename_i job rest isReady
      exact .worked isReady (worked_perform _ job)
  | reply key reply =>
    change Acted run (.reply key reply) ((run.free? key reply).getD run)
    unfold free?
    cases run.held.get? key with
    | none => exact .unchanged fun _ other => nomatch other
    | some task => exact .freed key task reply
  | prepare peer call replies => exact .prepared peer call replies
  | cancel task =>
    change Acted run (.cancel task) ((run.withdraw? task).getD run)
    cases withdrawn : run.withdraw? task with
    | none => exact .unchanged fun _ other => nomatch other
    | some after => exact .withdrawn withdrawn

theorem Tidy.entered (tidy : run.Tidy) (router : Router) :
    (run.entered router).AtWork run.nextTask := by
  have fresh : run.nextTask ∉ (run.entered router).numbers :=
    fun member => Nat.lt_irrefl _ (tidy.numbered.below _ member)
  have composed : Composed [] (run.entered router) :=
    ⟨tidy.launching.kept ⟨rfl, fun _ _ => id, fun _ _ _ _ => rfl⟩ rfl rfl rfl,
      tidy.spared.kept (Nat.le_succ _) (fun _ => id) fun _ _ => id,
      tidy.attended.kept ⟨fun _ _ => id, fun _ _ _ _ => id⟩ rfl rfl rfl (Nat.le_succ _)⟩
  rw [← without_of_unnumbered fresh] at composed
  exact ⟨composed, tidy.numbered.entered router,
    ⟨tidy.listed.placed, tidy.listed.listed⟩,
    fun expected => Nat.lt_irrefl _ (tidy.attended.known _ expected).1⟩

theorem Tidy.taking (tidy : run.Tidy) (command : BridgeCommand) :
    (run.taking command).AtWork run.nextTask :=
  (tidy.entered _).unmoved (run.unmoved_taking command)

theorem Tidy.interrupt (tidy : run.Tidy) (below : task < run.nextTask)
    (unstarted : ¬ run.Starts task) : (run.interrupt task).Tidy := by
  have unseen : (run.interrupt task).starts = run.starts := Table.mapValues_mapValues _ _ _
  have numbered : (run.enqueue [.resume task .cancelled]).Numbered := tidy.numbered.enqueue rfl
  have launching : Launching [] (run.enqueue [.resume task .cancelled]) :=
    tidy.launching.enqueue (by simp [Job.start?])
  refine ⟨⟨?_, ?_, tidy.attended.interrupt task⟩, numbered.congr rfl rfl rfl, tidy.listed⟩
  · exact launching.kept (Bridge.Unmoved.refl _).grows unseen rfl rfl
  · intro other exposed
    have kept : ∀ number, (run.interrupt task).Starts number → run.Starts number := by
      intro number starts
      simpa [Starts, Run.interrupt, Run.enqueue] using starts
    rcases exposed with queued | member
    · rcases List.mem_append.mp queued with old | new
      · exact ⟨(tidy.spared other (Or.inl old)).1,
          fun starts => (tidy.spared other (Or.inl old)).2 (kept other starts)⟩
      · cases List.mem_singleton.mp new
        exact ⟨below, fun starts => unstarted (kept _ starts)⟩
    · exact ⟨(tidy.spared other (Or.inr member)).1,
        fun starts => (tidy.spared other (Or.inr member)).2 (kept other starts)⟩

/-- Those that a task has split into are cancelled together; none of them starts a child server. -/
theorem Tidy.interruptGroup (tidy : run.Tidy) {group : Group}
    (found : run.groups.get? task = some group) : (run.interruptGroup task group).Tidy := by
  let marked : Run := { run with groups := run.groups.put task { group with cancelled := true } }
  have unmoved : run.Unmoved marked := by
    refine ⟨.refl _, rfl, rfl, rfl, rfl, rfl, fun parent later known => ?_⟩
    rcases Table.of_get?_put known with ⟨rfl, rfl⟩ | ⟨_, old⟩
    · exact ⟨group, found, rfl⟩
    · exact ⟨later, old, rfl⟩
  have exposed : ∀ member ∈ group.members, marked.Exposed member := by
    intro member isMember
    refine Or.inr ⟨task, { group with cancelled := true }, ?_, isMember⟩
    simp [marked, Table.get?_put]
  have cancelled : (run.interruptGroup task group).Tidy ∧
      ∀ member ∈ group.members, (run.interruptGroup task group).Exposed member := by
    unfold Run.interruptGroup
    refine List.foldlRecOn (motive := fun after : Run => after.Tidy ∧
      ∀ member ∈ group.members, after.Exposed member) _ Run.interrupt ⟨tidy.unmoved unmoved, exposed⟩ ?_
    rintro after ⟨tidyAfter, exposedAfter⟩ member isMember
    obtain ⟨below, unstarted⟩ :=
      tidyAfter.spared member (exposedAfter member (List.mem_filter.mp isMember).1)
    refine ⟨tidyAfter.interrupt below unstarted, fun other isOther => ?_⟩
    exact (exposedAfter other isOther).imp_left (List.mem_append_left _)
  exact cancelled.1

theorem Tidy.withdraw (tidy : run.Tidy) (letsStart : run.LetsStart (.cancel task))
    (withdrawn : run.withdraw? task = some after) : after.Tidy := by
  obtain ⟨activity, held, rfl⟩ := Option.map_eq_some_iff.mp withdrawn
  split
  · rename_i group found
    exact tidy.interruptGroup found
  · have unqueued : task ∉ run.ready.filterMap Job.begins? := by
      intro begins
      rw [tidy.numbered.absent begins] at held
      contradiction
    have known : task ∈ run.numbers :=
      List.mem_append_left _ (List.mem_filterMap.mpr ⟨_, Table.mem_entries_of_get? held, rfl⟩)
    refine tidy.interrupt (tidy.numbered.below task known) ?_
    rintro (⟨language, server, queued⟩ | ⟨other, isHeld, launched⟩)
    · exact unqueued (List.mem_filterMap.mpr ⟨_, queued, rfl⟩)
    · exact launched (letsStart other isHeld)

theorem Acted.tidy {event : BridgeEvent} (acted : Acted run event after) (tidy : run.Tidy)
    (orderly : run.bridge.Orderly) (letsStart : run.LetsStart event) : after.Tidy := by
  cases acted with
  | entered issues turn => exact turn.tidy (tidy.taking _)
  | worked isReady worked => exact worked.tidy tidy orderly isReady
  | freed key task reply =>
    have unheld : ({ run with held := run.held.erase key } : Run).Tidy :=
      tidy.unmoved ⟨.refl _, rfl, rfl, rfl, rfl, rfl, (Unmoved.refl run).groups⟩
    exact unheld.enqueue rfl rfl rfl fun _ other => nomatch other
  | prepared peer call replies =>
    exact tidy.unmoved (.setBridge ⟨rfl, rfl, rfl, rfl, rfl, .of_effects rfl⟩)
  | withdrawn withdrawn => exact tidy.withdraw letsStart withdrawn
  | unchanged outside => exact tidy

theorem fresh_tidy (config : Config) (padding : Padding) (names : LanguageNames)
    (rules : Option (List Rule)) (root : Option String) (publishes : Bool) (editor : Editor) :
    (fresh config padding names rules root publishes editor).Tidy where
  numbered := ⟨.nil, fun _ member => nomatch member⟩
  listed :=
    { placed := fun _ _ found => nomatch found
      listed := fun _ within => nomatch within }
  launching :=
    { distinct := .nil
      launches := .nil
      forgotten := .nil
      server := fun _ _ found => nomatch found
      fresh := fun _ _ found => nomatch found
      settled := fun _ _ _ found => nomatch found
      tasks := fun _ _ held => nomatch held
      queued := fun _ _ _ member => nomatch member }
  spared := by
    rintro task (queued | ⟨parent, group, found, _⟩)
    · cases queued
    · cases found
  attended :=
    { distinct := .nil
      once := .nil
      known := fun _ member => nomatch member
      listening := fun _ _ _ _ held => nomatch held
      heard := fun _ _ _ held => nomatch held
      told := fun _ _ _ _ held => nomatch held }

end Run

end LanguageBridge
