import LanguageBridge.Proofs.Bridge.Issuing

namespace LanguageBridge

/-! Tasks that have nothing to do with each other. Numbers of tasks and requests can be set apart; what
others do then leaves these tasks alone, with all they wait for and all they have come to. -/

/-! ### Bridges -/

namespace Bridge

/-- The hosts stay as they are, with all that is held of them, and no request is entered. What is said
is about these hosts. -/
structure Remains (before after : Bridge) : Prop where
  store : after.store = before.store
  diagnostics : after.diagnostics = before.diagnostics
  memory : after.router.memory = before.router.memory
  issued : after.router.pending.next = before.router.pending.next
  effects : before.Orderly → before.wire.Adds (Effect.Current before.store) after.wire

theorem Rests.remains {before after : Bridge} (rests : before.Rests after) : before.Remains after :=
  { rests with
    memory := congrArg Router.memory rests.router
    issued := congrArg (·.pending.next) rests.router }

namespace Remains

variable {before middle after : Bridge}

theorem refl (bridge : Bridge) : bridge.Remains bridge :=
  (Rests.refl bridge).remains

theorem orderly (remains : before.Remains after) (orderly : before.Orderly) : after.Orderly :=
  orderly.of_same remains.store remains.diagnostics

theorem trans (first : before.Remains middle) (second : middle.Remains after) :
    before.Remains after where
  store := second.store.trans first.store
  diagnostics := second.diagnostics.trans first.diagnostics
  memory := second.memory.trans first.memory
  issued := second.issued.trans first.issued
  effects := fun orderly =>
    (first.effects orderly).trans (first.store ▸ second.effects (first.orderly orderly))

end Remains

/-- Whatever the child servers are told, the host is closed; it is forgotten if all of them are told. -/
theorem closeHost_rests (bridge : Bridge) (host : String) :
    (bridge.closeHost host).1.store = bridge.store.close host ∧
      (bridge.closeHost host).1.router = match (bridge.closeHost host).2 with
        | .ok () => bridge.router.forgetHost host
        | .error _ => bridge.router := by
  obtain ⟨store, _, router, _⟩ := closeDocuments_frame host (bridge.store.documents host)
    { bridge with store := bridge.store.close host }
  have told (closed : Bridge) : closed.Rests (closed.announce host []) :=
    .announce fun _ => Or.inl rfl
  simp only [closeHost]
  split
  · rename_i isClosed
    rw [isClosed] at store router
    exact ⟨store, router⟩
  · rename_i isClosed
    rw [isClosed] at store router
    exact ⟨(told _).store.trans store,
      (told _).router.trans (congrArg (Router.forgetHost · host) router)⟩

end Bridge

/-! ### Numbers set apart -/

structure Reserve where
  task : Nat → Prop
  request : Nat → Prop

section Off

variable (reserve : Reserve)

def Recipient.Off : Recipient → Prop
  | .member parent _ => ¬ reserve.task parent
  | _ => True

/-- An activity of others: its request is another one, and so is the task that it reports to. -/
def Activity.Off : Activity → Prop
  | .requesting context _ recipient | .answering context recipient =>
    ¬ reserve.request context.id ∧ recipient.Off reserve
  | .querying parent _ => ¬ reserve.task parent
  | _ => True

/-- A job of others. Anyone may pass on a reply or the end of a start. -/
def Job.Off : Job → Prop
  | .launch task _ _ | .resume task .gathered | .resume task .cancelled => ¬ reserve.task task
  | .send task context parent _ =>
    ¬ reserve.task task ∧ ¬ reserve.request context.id ∧ ¬ reserve.task parent
  | .search task _ _ parent _ => ¬ reserve.task task ∧ ¬ reserve.task parent
  | .report parent _ _ => ¬ reserve.task parent
  | .resume _ (.started _) | .resume _ (.reply _) | .forget _ | .relay _ _ => True

def Group.Off (group : Group) : Prop :=
  ∀ member ∈ group.members, ¬ reserve.task member

def Errand.Off (errand : Errand) : Prop :=
  (∀ context ∈ errand.requests, ¬ reserve.request context.id) ∧ errand.recipient.Off reserve

variable {reserve}

theorem Activity.Off.errand {activity : Activity} (off : activity.Off reserve) (signal : Signal) :
    (activity.errand signal).Off reserve := by
  constructor
  · intro context member
    rw [requests_errand] at member
    cases activity with
    | requesting own server recipient =>
      cases List.mem_singleton.mp member
      exact off.1
    | answering own recipient =>
      cases List.mem_singleton.mp member
      exact off.1
    | _ => contradiction
  · unfold Activity.errand
    split <;> first | trivial | exact off | exact off.2

section Waits

variable {errand : Errand} {activity : Activity} (isOff : errand.Off reserve)
include isOff

theorem Errand.Holds.off (holds : errand.Holds activity) : activity.Off reserve := by
  cases holds with
  | answer context recipient chosen => exact ⟨isOff.1 context List.mem_cons_self, isOff.2⟩
  | found parent index chosen => exact isOff.2
  | served server serves => trivial

theorem Errand.Awaits.off {language : String} {server : Nat}
    (awaits : errand.Awaits language server activity) : activity.Off reserve := by
  cases awaits with
  | request context recipient chosen server => exact ⟨isOff.1 context List.mem_cons_self, isOff.2⟩
  | _ => trivial

end Waits

section Joins

variable {job : Job} {parent member : Nat} (joins : job.Joins parent member)
include joins

theorem Job.Joins.off (otherParent : ¬ reserve.task parent) (otherMember : ¬ reserve.task member)
    (own : ∀ context, job.context? = some context → ¬ reserve.request context.id) :
    job.Off reserve := by
  cases job with
  | send task context split index =>
    obtain ⟨rfl, rfl⟩ := joins
    exact ⟨otherMember, own context rfl, otherParent⟩
  | search task server query split index =>
    obtain ⟨rfl, rfl⟩ := joins
    exact ⟨otherMember, otherParent⟩
  | _ => exact joins.elim

theorem Job.Joins.of_off (off : job.Off reserve) :
    ¬ reserve.task member ∧ ¬ reserve.task parent ∧ job.errand.Off reserve := by
  cases job with
  | send task context split index =>
    obtain ⟨rfl, rfl⟩ := joins
    refine ⟨off.1, off.2.2, ?_, off.2.2⟩
    intro other isOther
    rw [List.mem_singleton.mp isOther]
    exact off.2.1
  | search task server query split index =>
    obtain ⟨rfl, rfl⟩ := joins
    exact ⟨off.1, off.2, fun _ member => (nomatch member), off.2⟩
  | _ => exact joins.elim

end Joins

end Off

namespace Run

/-- Nothing of the reserve has changed, and nobody has come to refer to it. -/
structure Kept (reserve : Reserve) (before after : Run) : Prop where
  tasks : ∀ task, reserve.task task → after.tasks.get? task = before.tasks.get? task
  finished : ∀ task, reserve.task task → after.finished.get? task = before.finished.get? task
  groups : ∀ task, reserve.task task → after.groups.get? task = before.groups.get? task
  pending : ∀ id, reserve.request id →
    after.bridge.router.pending.contexts.get? id = before.bridge.router.pending.contexts.get? id
  ready : ∃ more, after.ready = before.ready ++ more ∧ ∀ job ∈ more, job.Off reserve
  otherTasks : ∀ task activity, ¬ reserve.task task → after.tasks.get? task = some activity →
    before.tasks.get? task = some activity ∨ activity.Off reserve
  otherGroups : ∀ task group, ¬ reserve.task task → after.groups.get? task = some group →
    (∃ earlier, before.groups.get? task = some earlier ∧ group.members = earlier.members) ∨
      group.Off reserve

/-- No number of the reserve is given out. -/
def Unborn (reserve : Reserve) (before after : Run) : Prop :=
  ∀ task, reserve.task task → before.nextTask ≤ task → after.nextTask ≤ task

/-- What others do. They leave the reserve alone unless they are given numbers of it. -/
structure Apart (reserve : Reserve) (before after : Run) : Prop
    extends before.bridge.Remains after.bridge where
  next : before.nextTask ≤ after.nextTask
  kept : Unborn reserve before after → Kept reserve before after

variable {reserve : Reserve} {run before middle after : Run} {task : Nat}

theorem Kept.refl (run : Run) : Kept reserve run run where
  tasks := fun _ _ => rfl
  finished := fun _ _ => rfl
  groups := fun _ _ => rfl
  pending := fun _ _ => rfl
  ready := ⟨[], by simp⟩
  otherTasks := fun _ _ _ => Or.inl
  otherGroups := fun _ group _ found => Or.inl ⟨group, found, rfl⟩

theorem Kept.trans (first : Kept reserve before middle) (second : Kept reserve middle after) :
    Kept reserve before after where
  tasks := fun task isReserved =>
    (second.tasks task isReserved).trans (first.tasks task isReserved)
  finished := fun task isReserved =>
    (second.finished task isReserved).trans (first.finished task isReserved)
  groups := fun task isReserved =>
    (second.groups task isReserved).trans (first.groups task isReserved)
  pending := fun id isReserved =>
    (second.pending id isReserved).trans (first.pending id isReserved)
  ready := by
    obtain ⟨some, isMiddle, off⟩ := first.ready
    obtain ⟨more, isAfter, offToo⟩ := second.ready
    refine ⟨some ++ more, by rw [isAfter, isMiddle, List.append_assoc], ?_⟩
    intro job member
    rcases List.mem_append.mp member with inFirst | inSecond
    · exact off job inFirst
    · exact offToo job inSecond
  otherTasks := by
    intro task activity other found
    rcases second.otherTasks task activity other found with earlier | off
    · exact first.otherTasks task activity other earlier
    · exact Or.inr off
  otherGroups := by
    intro task group other found
    rcases second.otherGroups task group other found with ⟨between, foundBetween, same⟩ | off
    · rcases first.otherGroups task between other foundBetween with ⟨earlier, foundEarlier, sameToo⟩ |
        off
      · exact Or.inl ⟨earlier, foundEarlier, same.trans sameToo⟩
      · exact Or.inr fun member isMember => off member (same ▸ isMember)
    · exact Or.inr off

namespace Apart

theorem refl (run : Run) : Apart reserve run run :=
  ⟨.refl _, Nat.le_refl _, fun _ => .refl run⟩

theorem trans (first : Apart reserve before middle) (second : Apart reserve middle after) :
    Apart reserve before after where
  toRemains := first.toRemains.trans second.toRemains
  next := Nat.le_trans first.next second.next
  kept := by
    intro unborn
    refine (first.kept fun task isReserved later => ?_).trans
      (second.kept fun task isReserved later => ?_)
    · exact Nat.le_trans second.next (unborn task isReserved later)
    · exact unborn task isReserved (Nat.le_trans first.next later)

/-! ### Single changes -/

theorem setBridge {bridge : Bridge} (rests : run.bridge.Rests bridge) :
    Apart reserve run (run.setBridge bridge) where
  toRemains := rests.remains
  next := Nat.le_refl _
  kept := fun _ => { Kept.refl run with
    pending := by simp [Run.setBridge, rests.router]
    ready := ⟨[], by simp [Run.setBridge]⟩ }

theorem enqueue {jobs : List Job} (off : ∀ job ∈ jobs, job.Off reserve) :
    Apart reserve run (run.enqueue jobs) :=
  ⟨.refl _, Nat.le_refl _, fun _ => { Kept.refl run with ready := ⟨jobs, rfl, off⟩ }⟩

theorem block (other : ¬ reserve.task task) (activity : Activity) (off : activity.Off reserve) :
    Apart reserve run (run.block task activity) where
  toRemains := .refl _
  next := Nat.le_refl _
  kept := fun _ => { Kept.refl run with
    tasks := by
      intro reserved isReserved
      have different : reserved ≠ task := fun same => other (same ▸ isReserved)
      simp [Run.block, Table.get?_put, different]
    otherTasks := by
      intro changed found _ isFound
      rcases Table.of_get?_put isFound with ⟨rfl, rfl⟩ | ⟨_, old⟩
      · exact Or.inr off
      · exact Or.inl old }

theorem erase (other : ¬ reserve.task task) :
    Apart reserve run { run with tasks := run.tasks.erase task } where
  toRemains := .refl _
  next := Nat.le_refl _
  kept := fun _ => { Kept.refl run with
    tasks := by
      intro reserved isReserved
      have different : reserved ≠ task := fun same => other (same ▸ isReserved)
      simp [Table.get?_erase, different]
    otherTasks := fun _ _ _ isFound => Or.inl (Table.of_get?_erase isFound).2 }

/-- Whoever waits for what, and for which start, is nobody's concern. -/
theorem rewait (run : Run) (held : Table String Nat) (startUps : Table String StartUp) :
    Apart reserve run { run with held := held, startUps := startUps } :=
  ⟨.refl _, Nat.le_refl _, fun _ => ⟨fun _ _ => rfl, fun _ _ => rfl, fun _ _ => rfl,
    fun _ _ => rfl, ⟨[], by simp⟩, fun _ _ _ => Or.inl,
    fun _ group _ found => Or.inl ⟨group, found, rfl⟩⟩⟩

theorem finish (other : ¬ reserve.task task) (outcome : Outcome) :
    Apart reserve run (run.finish task outcome) := by
  refine (erase other).trans ⟨.refl _, Nat.le_refl _, fun _ => ?_⟩
  exact { Kept.refl { run with tasks := run.tasks.erase task } with
    finished := by
      intro reserved isReserved
      have different : reserved ≠ task := fun same => other (same ▸ isReserved)
      simp [Run.finish, Table.get?_put, different]
    ready := ⟨[], by simp [Run.finish]⟩ }

theorem hold (other : ¬ reserve.task task) (key : Option String) (activity : Activity)
    (off : activity.Off reserve) : Apart reserve run (run.hold task key activity) :=
  (block other activity off).trans (rewait _ _ _)

theorem await (other : ¬ reserve.task task) (language : String) (activity : Activity)
    (off : activity.Off reserve) : Apart reserve run (run.await task language activity) :=
  (block other activity off).trans (rewait _ _ _)

theorem discard {router : Router} {id : Nat} (other : ¬ reserve.request id)
    (memory : router.memory = run.bridge.router.memory)
    (left : router.pending = run.bridge.router.pending.discard id) :
    Apart reserve run (run.setBridge { run.bridge with router := router }) where
  toRemains := ⟨rfl, rfl, memory, by simp [Run.setBridge, left, Pending.discard], fun _ => .refl _⟩
  next := Nat.le_refl _
  kept := fun _ => { Kept.refl run with
    pending := by
      intro reserved isReserved
      have different : reserved ≠ id := fun same => other (same ▸ isReserved)
      simp [Run.setBridge, left, Pending.discard, Table.get?_erase, different]
    ready := ⟨[], by simp [Run.setBridge]⟩ }

/-- A number that is given out is not in the reserve. -/
theorem queueLaunch (run : Run) (language : String) (server : Nat) :
    Apart reserve run (run.queueLaunch language server) where
  toRemains := .refl _
  next := Nat.le_succ _
  kept := by
    intro unborn
    refine { Kept.refl run with ready := ⟨[.launch run.nextTask language server], rfl, ?_⟩ }
    intro job member
    rw [List.mem_singleton.mp member]
    intro isReserved
    have later : run.nextTask + 1 ≤ run.nextTask := unborn _ isReserved (Nat.le_refl _)
    omega

theorem split {purpose : Purpose} {count : Nat} {job : Nat → Nat → Job}
    (other : ¬ reserve.task task)
    (off : ∀ index, index < count → ¬ reserve.task (run.nextTask + index) →
      (job (run.nextTask + index) index).Off reserve) :
    Apart reserve run (run.split task purpose count job) where
  toRemains := .refl _
  next := Nat.le_add_right _ _
  kept := by
    intro unborn
    have fresh (index : Nat) (within : index < count) : ¬ reserve.task (run.nextTask + index) := by
      intro isReserved
      have later : run.nextTask + count ≤ run.nextTask + index :=
        unborn _ isReserved (Nat.le_add_right _ _)
      omega
    have blocked : Kept reserve run (run.block task .gathering) :=
      (block other .gathering trivial : Apart reserve run _).kept fun _ _ => id
    refine blocked.trans { Kept.refl (run.block task .gathering) with
      groups := ?_
      ready := ⟨(List.range count).map fun index => job (run.nextTask + index) index, rfl, ?_⟩
      otherGroups := ?_ }
    · intro reserved isReserved
      have different : reserved ≠ task := fun same => other (same ▸ isReserved)
      simp [Run.split, Run.enqueue, Run.block, Table.get?_put, different]
    · intro queued member
      obtain ⟨index, within, isJob⟩ := List.mem_map.mp member
      rw [← isJob]
      exact off index (List.mem_range.mp within) (fresh index (List.mem_range.mp within))
    · intro parent group _ found
      rcases Table.of_get?_put found with ⟨rfl, rfl⟩ | ⟨_, old⟩
      · refine Or.inr fun member isMember => ?_
        obtain ⟨index, within, isMember⟩ := List.mem_map.mp isMember
        rw [← isMember]
        exact fresh index (List.mem_range.mp within)
      · exact Or.inl ⟨group, old, rfl⟩

/-- A group may learn something, but it has the members that it has. -/
theorem putGroup {parent : Nat} {earlier group : Group} (other : ¬ reserve.task parent)
    (found : run.groups.get? parent = some earlier) (same : group.members = earlier.members) :
    Apart reserve run { run with groups := run.groups.put parent group } where
  toRemains := .refl _
  next := Nat.le_refl _
  kept := fun _ => { Kept.refl run with
    groups := by
      intro reserved isReserved
      have different : reserved ≠ parent := fun same => other (same ▸ isReserved)
      simp [Table.get?_put, different]
    otherGroups := by
      intro changed later _ isFound
      rcases Table.of_get?_put isFound with ⟨rfl, rfl⟩ | ⟨_, old⟩
      · exact Or.inl ⟨earlier, found, same⟩
      · exact Or.inl ⟨later, old, rfl⟩ }

theorem eraseGroup (other : ¬ reserve.task task) :
    Apart reserve run { run with groups := run.groups.erase task } where
  toRemains := .refl _
  next := Nat.le_refl _
  kept := fun _ => { Kept.refl run with
    groups := by
      intro reserved isReserved
      have different : reserved ≠ task := fun same => other (same ▸ isReserved)
      simp [Table.get?_erase, different]
    otherGroups := fun _ later _ isFound =>
      Or.inl ⟨later, (Table.of_get?_erase isFound).2, rfl⟩ }

end Apart

theorem Apart.log {other : Run} (apart : Apart reserve run other) (severity : Severity)
    (text : String) : Apart reserve run (other.log severity text) :=
  apart.trans (.setBridge ⟨rfl, rfl, rfl, fun _ => .emit _ trivial⟩)

theorem apart_create (run : Run) (language : String) (command : List String) :
    Apart reserve run (run.setBridge (run.bridge.addServer language command)) :=
  .setBridge ⟨rfl, rfl, rfl, fun _ => .refl _⟩

theorem apart_ensure (run : Run) (language : String) :
    Apart reserve run (run.ensure language).1 :=
  ensure_induction (fun _ _ _ _ _ apart => apart.trans (apart_create _ _ _))
    (fun _ _ _ _ _ _ _ apart => apart.trans (.queueLaunch _ _ _)) (.refl run) language

theorem Notes.apart {parent : Nat} (notes : run.Notes parent after) (other : ¬ reserve.task parent) :
    Apart reserve run after := by
  rcases notes with rfl | ⟨earlier, group, found, same, _, rfl⟩
  · exact .refl _
  · exact .putGroup other found same

/-! ### Turns -/

section Turns

variable {errand later : Errand} (other : ¬ reserve.task task)
include other

theorem Move.apart (move : Move task errand run later after) : Apart reserve run after := by
  cases move with
  | log run severity text => exact (Apart.refl run).log severity text
  | close run => exact .eraseGroup other
  | settings run settings => exact .setBridge (.updateSettings _ settings)
  | receive run server message => exact .setBridge (.routine (.receive _ message))
  | serve run server serves reply => exact .setBridge (.routine (.resume _ _ reply))
  | publish run => exact .setBridge (.publish _ _)
  | skip down => exact .refl run
  | sync synced => exact .setBridge (.syncDocument synced)
  | request known => exact .setBridge (.routine (.request _ _ _))
  | query run server params => exact .setBridge (.routine (.request _ _ params))

theorem Ends.apart (ends : Ends task errand run after) (off : errand.Off reserve) :
    Apart reserve run after := by
  induction ends with
  | drop left memory next ih =>
    have own := off.1 _ List.mem_cons_self
    exact (Apart.discard own memory left).trans (ih ⟨fun _ member => (nomatch member), off.2⟩)
  | finish run none outcome => exact .finish other outcome
  | report run parent index outcome =>
    refine (Apart.erase other).trans (.enqueue fun job member => ?_)
    rw [List.mem_singleton.mp member]
    exact off.2

theorem Turn.apart (turn : Turn task errand run after) (off : errand.Off reserve) :
    Apart reserve run after := by
  induction turn with
  | move move next ih =>
    refine (move.apart other).trans (ih ?_)
    cases move <;> exact off
  | create unknown configured next ih => exact (apart_create _ _ _).trans (ih off)
  | launch found down untried first next ih => exact (Apart.queueLaunch _ _ _).trans (ih off)
  | ends relieved ends => exact ends.apart other off
  | hold run key holds => exact .hold other key _ (holds.off off)
  | await awaits current down found unsettled => exact .await other _ _ (awaits.off off)
  | split relieved joins requests searched =>
    refine .split other fun index within otherMember =>
      (joins index within).off other otherMember fun context isContext => off.1 context ?_
    rw [← requests]
    exact List.mem_filterMap.mpr ⟨index, List.mem_range.mpr within, isContext⟩

/-! ### Starts and stops -/

theorem apart_settle (language : String) (outcome : Except Fault Bool) :
    Apart reserve run (run.settle task language outcome) := by
  refine (Apart.erase other).trans ((Apart.rewait _ run.held _).trans (.enqueue ?_))
  intro job member
  rcases List.mem_cons.mp member with isForget | isRelay
  · rw [isForget]
    trivial
  · obtain ⟨waiter, _, isJob⟩ := List.mem_map.mp isRelay
    rw [← isJob]
    trivial

theorem Launched.apart {language : String} {server : Nat}
    {launched : Link × Attempt LaunchStage Bool}
    (result : Launched run task language server launched after)
    (effects : run.bridge.wire.Adds Effect.Unnoticed launched.1.wire) :
    Apart reserve run after := by
  have linked : Apart reserve run (run.setBridge (run.bridge.setLink server launched.1)) :=
    .setBridge (.setLink effects)
  cases result with
  | waits blocked => exact linked.trans (.hold other _ (.launching language server _) trivial)
  | settles ended short => exact linked.trans (apart_settle other language _)
  | synced ended synced =>
    have rests := Bridge.Rests.syncLaunched synced
    exact linked.trans ((Apart.setBridge rests).trans (apart_settle other language _))

theorem apart_stopServers (count remaining : Nat) (run : Run) :
    Apart reserve run (stopServers task count remaining run) := by
  induction remaining generalizing run with
  | zero =>
    unfold stopServers
    split
    · exact .finish other _
    · have emptied : Apart reserve run (run.setBridge { run.bridge with current := {} }) :=
        .setBridge ⟨rfl, rfl, rfl, fun _ => .refl _⟩
      exact emptied.trans (.finish other _)
  | succ later ih =>
    unfold stopServers
    split
    · exact .finish other _
    · have stopped (server : Nat) : Apart reserve run
          (run.setBridge (run.bridge.setLink server (run.bridge.link server).stop.1)) :=
        .setBridge (.routine (.stop _))
      dsimp only
      split
      · exact (stopped _).trans (.hold other _ (.stopping count later _ _) trivial)
      · exact (stopped _).trans (ih _)

theorem apart_resumeStop (count remaining server : Nat) (stage : HaltStage) (reply : Reply) :
    Apart reserve run (run.resumeStop task count remaining server stage reply) := by
  have stopped : Apart reserve run (run.setBridge (run.bridge.setLink server
      ((run.bridge.link server).resumeStop stage reply).1)) :=
    .setBridge (.routine (.resumeStop _ stage reply))
  simp only [resumeStop]
  split
  · exact stopped.trans (.hold other _ (.stopping count remaining server _) trivial)
  · exact stopped.trans (apart_stopServers other count remaining _)

theorem apart_stopped {activity : Activity} (stops : ¬ activity.Ordinary) (signal : Signal) :
    Apart reserve run (run.resume task activity signal) := by
  cases activity with
  | stopping count remaining server stage =>
    cases signal with
    | reply reply => exact apart_resumeStop other count remaining server stage reply
    | cancelled => exact .finish other _
    | _ => exact .refl run
  | serving server served =>
    cases signal with
    | reply reply =>
      have linked : Apart reserve run (run.setBridge (run.bridge.setLink server
          (served.resume (run.bridge.link server) reply).1)) :=
        .setBridge (.routine (.resume _ _ _))
      simp only [resume, serve]
      split
      · exact linked.trans (.hold other _ (.serving server _) trivial)
      · exact linked.trans (.finish other _)
    | cancelled => exact .finish other _
    | _ => exact .refl run
  | _ => exact absurd trivial stops

end Turns

/-! ### One job -/

/-- A task that goes on is one of the others. Nobody is reached by a signal to a task that does not
wait. -/
theorem Worked.apart {job : Job} (worked : Worked run job after) (off : job.Off reserve)
    (other : ∀ task signal activity, job = .resume task signal → run.tasks.get? task = some activity →
      ¬ reserve.task task)
    (others : ∀ task activity, ¬ reserve.task task → run.tasks.get? task = some activity →
      activity.Off reserve) : Apart reserve run after := by
  cases worked with
  | begun joins turn =>
    obtain ⟨otherMember, _, offErrand⟩ := joins.of_off off
    exact turn.apart otherMember offErrand
  | withheld joins cancelled ends =>
    obtain ⟨otherMember, otherParent, _⟩ := joins.of_off off
    exact ends.apart otherMember ⟨fun _ member => (nomatch member), otherParent⟩
  | @launch task language server after launched =>
    have speaking : Apart reserve run (run.setBridge { run.bridge with
        speakers := run.bridge.speakers.put (run.bridge.link server).server.language server }) :=
      .setBridge ⟨rfl, rfl, rfl, fun _ => .refl _⟩
    exact speaking.trans (launched.apart off (Link.start_unnoticed _ _))
  | relaunched held launched =>
    exact launched.apart (other _ _ _ rfl held)
      ((Link.Routine.resumeStart _ _ _).mono fun _ => Effect.Routine.unnoticed)
  | resumed held _ meant turn =>
    have isOther := other _ _ _ rfl held
    exact turn.apart isOther ((others _ _ isOther held).errand _)
  | abandoned held ends =>
    have isOther := other _ _ _ rfl held
    exact ends.apart isOther ((others _ _ isOther held).errand _)
  | ignored idle => exact .refl run
  | stopped held stops => exact apart_stopped (other _ _ _ rfl held) stops _
  | forgotten language => exact .rewait run run.held _
  | relayed task outcome =>
    refine .enqueue fun job member => ?_
    rw [List.mem_singleton.mp member]
    trivial
  | noted notes => exact notes.apart off
  | woken notes =>
    refine (notes.apart off).trans (.enqueue fun job member => ?_)
    rw [List.mem_singleton.mp member]
    exact off

end Run

end LanguageBridge
