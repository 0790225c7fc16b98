import LanguageBridge.Proofs.Bridge.Numbers

namespace LanguageBridge

/-! A request to all languages of a host while it is under way: what its members are waiting for, and that
nothing changes about them as long as others have their turns. -/

/-! ### What child servers say -/

/-- What the child server of a language has to say to a request. -/
inductive Said where
  /-- There is no child server, or it has not started. -/
  | nobody
  | failure (fault : Fault)
  | result (answer : Answer)

/-- What it comes to in the host. -/
def Said.outcome (store : Store) (context : Context) : Said → Outcome
  | nobody => .ok .notApplicable
  | failure fault => .error fault
  | result answer => (store.bringBack context answer).1.map .answer

def Attempt.said? : Attempt Unit Answer → Option Said
  | blocked _ _ => none
  | done (.error fault) => some (.failure fault)
  | done (.ok answer) => some (.result answer)

namespace Run

/-- What a child server that is up says at once. -/
def answered? (run : Run) (context : Context) (server : Nat) : Option Said :=
  ((run.bridge.link server).request context.method context.params).2.said?

/-- What is said to a request that is sent. -/
def saidToSent? (run : Run) (context : Context) : Option Said :=
  match run.ensure context.language with
  | (ensured, .ready server) => ensured.answered? context server
  | (_, .absent) => some .nobody
  | (_, .raised fault) => some (.failure fault)
  | (_, .starting _) => none

/-- What is said to a request that has waited. -/
def saidToWaiting? (run : Run) : Activity → Signal → Option Said
  | .requesting context server _, .started (.ok true) => run.answered? context server
  | .requesting _ _ _, .started (.ok false) => some .nobody
  | .requesting _ _ _, .started (.error fault) => some (.failure fault)
  | .answering _ _, .reply reply => (Link.afterRequest reply).said?
  | _, _ => none

/-- What a job brings to the task that has a request in hand. -/
def heard? (run : Run) : Job → Option (Nat × Said)
  | .send task context _ _ => (run.saidToSent? context).map (task, ·)
  | .resume task signal =>
    ((run.tasks.get? task).bind fun activity => run.saidToWaiting? activity signal).map (task, ·)
  | _ => none

/-- What happens while a task that has split into one for each of these languages is under way. No host
changes, nobody cancels it, and the members hear what is said in their languages. -/
def Hearing (parent : Nat) (languages : List String) (said : String → Said) (run : Run)
    (event : BridgeEvent) : Prop :=
  (run.act event).bridge.store = run.bridge.store ∧
    match event with
    | .step => ∀ job rest index language heard, run.ready = job :: rest →
        ({ run with ready := rest } : Run).heard? job = some (parent + 1 + index, heard) →
          languages[index]? = some language → heard = said language
    | .cancel task => task < parent ∨ parent + languages.length < task
    | _ => True

end Run

/-! ### Members and their phases -/

/-- A request to the child servers of several languages, and what they say to it. -/
structure Inquiry where
  parent : Nat
  method : Method
  contexts : List Context
  store : Store
  said : String → Said
  distinct : (contexts.map Context.id).Nodup

/-- How far a member is. -/
inductive Phase where
  | queued
  /-- It has its turn. -/
  | atWork
  | waiting
  | reporting
  /-- What it has come to is being noted. -/
  | leaving
  | reported
deriving DecidableEq

/-- Between two steps nobody is in the middle of something. -/
def Phase.Lasting (phase : Phase) : Prop :=
  phase ≠ .atWork ∧ phase ≠ .leaving

namespace Inquiry

variable (inquiry : Inquiry)

def member (index : Nat) : Nat :=
  inquiry.parent + 1 + index

def told (context : Context) : Outcome :=
  (inquiry.said context.language).outcome inquiry.store context

def reserve : Reserve where
  task := fun task => inquiry.parent ≤ task ∧ task ≤ inquiry.parent + inquiry.contexts.length
  request := fun id => ∃ context ∈ inquiry.contexts, context.id = id

/-- The place of a job: members have the places from one on, and the whole has place zero. -/
def place? : Job → Option Nat
  | .send _ _ parent index => if parent = inquiry.parent then some (index + 1) else none
  | .report parent index _ => if parent = inquiry.parent then some (index + 1) else none
  | .resume task .gathered => if task = inquiry.parent then some 0 else none
  | _ => none

def queue (run : Run) (place : Nat) : List Job :=
  run.ready.filter fun job => inquiry.place? job = some place

def slots (phase : Nat → Phase) : List (Option Outcome) :=
  inquiry.contexts.mapIdx fun index context =>
    if phase index = .reported then some (inquiry.told context) else none

def group (phase : Nat → Phase) : Group where
  purpose := .fanOut inquiry.method inquiry.contexts
  members := (List.range inquiry.contexts.length).map (inquiry.parent + 1 + ·)
  outcomes := inquiry.slots phase

def Waits (index : Nat) (context : Context) (activity : Activity) : Prop :=
  activity = .answering context (.member inquiry.parent index) ∨
    ∃ server, activity = .requesting context server (.member inquiry.parent index)

/-- What there is of a member in each phase. -/
def Stage (run : Run) (index : Nat) (context : Context) : Phase → Prop
  | .queued =>
    inquiry.queue run (index + 1) = [.send (inquiry.member index) context inquiry.parent index] ∧
      run.tasks.get? (inquiry.member index) = none ∧
      run.bridge.router.pending.contexts.get? context.id = some context
  | .atWork =>
    inquiry.queue run (index + 1) = [] ∧
      run.bridge.router.pending.contexts.get? context.id = some context
  | .waiting =>
    inquiry.queue run (index + 1) = [] ∧
      (∃ activity, run.tasks.get? (inquiry.member index) = some activity ∧
        inquiry.Waits index context activity) ∧
      run.bridge.router.pending.contexts.get? context.id = some context
  | .reporting =>
    inquiry.queue run (index + 1) = [.report inquiry.parent index (inquiry.told context)] ∧
      run.tasks.get? (inquiry.member index) = none
  | .leaving | .reported =>
    inquiry.queue run (index + 1) = [] ∧ run.tasks.get? (inquiry.member index) = none

def AllReported (phase : Nat → Phase) : Prop :=
  ∀ index < inquiry.contexts.length, phase index = .reported

instance (phase : Nat → Phase) : Decidable (inquiry.AllReported phase) :=
  inferInstanceAs (Decidable (∀ index < inquiry.contexts.length, phase index = .reported))

/-- The last report lets the whole go on. -/
def call (phase : Nat → Phase) : List Job :=
  if inquiry.AllReported phase then [.resume inquiry.parent .gathered] else []

/-- Nobody else refers to the inquiry, and its numbers have been given out. -/
structure Guarded (run : Run) : Prop where
  off : run.Off inquiry.reserve
  tasks : inquiry.parent + inquiry.contexts.length < run.nextTask
  requests : ∀ context ∈ inquiry.contexts, context.id < run.bridge.router.pending.next

/-- The inquiry has members in these phases. -/
structure Underway (phase : Nat → Phase) (run : Run) : Prop extends inquiry.Guarded run where
  jobs : ∀ job ∈ run.ready, job.Off inquiry.reserve ∨
    ∃ place ≤ inquiry.contexts.length, inquiry.place? job = some place
  store : run.bridge.store = inquiry.store
  gathering : run.tasks.get? inquiry.parent = some .gathering
  unfinished : run.finished.get? inquiry.parent = none
  group : run.groups.get? inquiry.parent = some (inquiry.group phase)
  called : inquiry.queue run 0 = inquiry.call phase
  members : ∀ index context, inquiry.contexts[index]? = some context →
    inquiry.Stage run index context (phase index)

/-- The inquiry is over. -/
structure Ended (run : Run) : Prop extends inquiry.Guarded run where
  jobs : ∀ job ∈ run.ready, job.Off inquiry.reserve
  tasks_none : ∀ task, inquiry.reserve.task task → run.tasks.get? task = none
  finished : run.finished.get? inquiry.parent =
    some (Run.fanOutOutcome inquiry.method (inquiry.contexts.map inquiry.told))

variable {inquiry} {phase : Nat → Phase} {before run after : Run} {index : Nat} {context : Context}

/-! ### Numbers and places -/

theorem reserve_parent : inquiry.reserve.task inquiry.parent :=
  ⟨Nat.le_refl _, Nat.le_add_right _ _⟩

theorem within (here : inquiry.contexts[index]? = some context) : index < inquiry.contexts.length :=
  (List.getElem?_eq_some_iff.mp here).1

theorem reserve_member (here : inquiry.contexts[index]? = some context) :
    inquiry.reserve.task (inquiry.member index) := by
  have := within here
  constructor <;> simp only [member] <;> omega

theorem reserve_request (here : inquiry.contexts[index]? = some context) :
    inquiry.reserve.request context.id :=
  ⟨context, List.mem_of_getElem? here, rfl⟩

theorem reserve_cases {task : Nat} (isReserved : inquiry.reserve.task task) :
    task = inquiry.parent ∨ ∃ index context, inquiry.contexts[index]? = some context ∧
      task = inquiry.member index := by
  obtain ⟨least, most⟩ := isReserved
  by_cases same : task = inquiry.parent
  · exact Or.inl same
  · refine Or.inr ⟨task - inquiry.parent - 1, _, List.getElem?_eq_getElem (by omega), ?_⟩
    simp only [member]
    omega

theorem member_injective {other : Nat} (different : other ≠ index) :
    inquiry.member other ≠ inquiry.member index := by
  simp only [member]
  omega

theorem parent_ne_member : inquiry.parent ≠ inquiry.member index := by
  simp only [member]
  omega

theorem id_ne {other : Nat} {another : Context} (here : inquiry.contexts[index]? = some context)
    (there : inquiry.contexts[other]? = some another) (different : other ≠ index) :
    another.id ≠ context.id := by
  intro same
  have known : other < (inquiry.contexts.map Context.id).length := by
    rw [List.length_map]
    exact within there
  refine different ((List.getElem?_inj known inquiry.distinct).mp ?_)
  rw [List.getElem?_map, List.getElem?_map, here, there, Option.map_some, Option.map_some, same]

theorem place?_of_off {job : Job} (off : job.Off inquiry.reserve) : inquiry.place? job = none := by
  cases job with
  | send task context parent index =>
    have different : parent ≠ inquiry.parent := fun same => off.2.2 (same ▸ reserve_parent)
    simp [place?, different]
  | report parent index outcome =>
    have different : parent ≠ inquiry.parent := fun same => off (same ▸ reserve_parent)
    simp [place?, different]
  | resume task signal =>
    cases signal with
    | gathered =>
      have different : task ≠ inquiry.parent := fun same => off (same ▸ reserve_parent)
      simp [place?, different]
    | _ => rfl
  | _ => rfl

theorem queue_append {more : List Job} (ready : after.ready = before.ready ++ more)
    (off : ∀ job ∈ more, job.Off inquiry.reserve) (place : Nat) :
    inquiry.queue after place = inquiry.queue before place := by
  have nothing : more.filter (fun job => inquiry.place? job = some place) = [] := by
    rw [List.filter_eq_nil_iff]
    intro job member
    simp [place?_of_off (off job member)]
  simp only [queue, ready, List.filter_append, nothing, List.append_nil]

theorem queue_pop {job : Job} {rest : List Job} (isReady : run.ready = job :: rest) (place : Nat) :
    inquiry.queue run place = if inquiry.place? job = some place then
      job :: inquiry.queue { run with ready := rest } place
    else inquiry.queue { run with ready := rest } place := by
  simp only [queue, isReady, List.filter_cons, decide_eq_true_eq]

/-! ### What others do -/

theorem Stage.congr {stage : Phase} (stands : inquiry.Stage before index context stage)
    (queue : inquiry.queue after (index + 1) = inquiry.queue before (index + 1))
    (tasks : after.tasks.get? (inquiry.member index) = before.tasks.get? (inquiry.member index))
    (pending : after.bridge.router.pending.contexts.get? context.id =
      before.bridge.router.pending.contexts.get? context.id) :
    inquiry.Stage after index context stage := by
  cases stage <;> simpa only [Stage, queue, tasks, pending] using stands

/-- Nobody of the inquiry has a part in what happens. -/
structure Aside (inquiry : Inquiry) (before after : Run) : Prop where
  off : after.Off inquiry.reserve
  next : before.nextTask ≤ after.nextTask
  issued : before.bridge.router.pending.next ≤ after.bridge.router.pending.next
  tasks : ∀ task, inquiry.reserve.task task → after.tasks.get? task = before.tasks.get? task
  finished : ∀ task, inquiry.reserve.task task →
    after.finished.get? task = before.finished.get? task
  groups : ∀ task, inquiry.reserve.task task → after.groups.get? task = before.groups.get? task
  pending : ∀ id, inquiry.reserve.request id →
    after.bridge.router.pending.contexts.get? id = before.bridge.router.pending.contexts.get? id
  queue : ∀ place, inquiry.queue after place = inquiry.queue before place
  jobs : ∀ job ∈ after.ready, job ∈ before.ready ∨ job.Off inquiry.reserve

theorem Guarded.aside (guarded : inquiry.Guarded before) (aside : inquiry.Aside before after) :
    inquiry.Guarded after where
  off := aside.off
  tasks := Nat.lt_of_lt_of_le guarded.tasks aside.next
  requests := fun context member => Nat.lt_of_lt_of_le (guarded.requests context member) aside.issued

theorem Underway.aside (underway : inquiry.Underway phase before)
    (aside : inquiry.Aside before after)
    (store : after.bridge.store = before.bridge.store) : inquiry.Underway phase after where
  toGuarded := underway.toGuarded.aside aside
  jobs := by
    intro job member
    rcases aside.jobs job member with earlier | off
    · exact underway.jobs job earlier
    · exact Or.inl off
  store := store.trans underway.store
  gathering := (aside.tasks _ reserve_parent).trans underway.gathering
  unfinished := (aside.finished _ reserve_parent).trans underway.unfinished
  group := (aside.groups _ reserve_parent).trans underway.group
  called := (aside.queue 0).trans underway.called
  members := fun index context here => (underway.members index context here).congr
    (aside.queue _) (aside.tasks _ (reserve_member here)) (aside.pending _ (reserve_request here))

theorem Ended.aside (ended : inquiry.Ended before) (aside : inquiry.Aside before after) :
    inquiry.Ended after where
  toGuarded := ended.toGuarded.aside aside
  jobs := by
    intro job member
    rcases aside.jobs job member with earlier | off
    · exact ended.jobs job earlier
    · exact off
  tasks_none := fun task isReserved =>
    (aside.tasks task isReserved).trans (ended.tasks_none task isReserved)
  finished := (aside.finished _ reserve_parent).trans ended.finished

theorem Aside.of_apart (guarded : inquiry.Guarded before)
    (apart : Run.Apart inquiry.reserve before after) : inquiry.Aside before after := by
  have kept := apart.kept fun task isReserved later => by
    have := guarded.tasks
    have := isReserved.2
    omega
  obtain ⟨more, ready, off⟩ := kept.ready
  refine ⟨guarded.off.kept kept, apart.next, Nat.le_of_eq apart.issued.symm, kept.tasks, kept.finished,
    kept.groups, kept.pending, queue_append ready off, ?_⟩
  intro job member
  rw [ready] at member
  exact (List.mem_append.mp member).imp_right (off job)

theorem Aside.trans {middle : Run} (first : inquiry.Aside before middle)
    (second : inquiry.Aside middle after) : inquiry.Aside before after where
  off := second.off
  next := Nat.le_trans first.next second.next
  issued := Nat.le_trans first.issued second.issued
  tasks := fun task isReserved =>
    (second.tasks task isReserved).trans (first.tasks task isReserved)
  finished := fun task isReserved =>
    (second.finished task isReserved).trans (first.finished task isReserved)
  groups := fun task isReserved =>
    (second.groups task isReserved).trans (first.groups task isReserved)
  pending := fun id isReserved =>
    (second.pending id isReserved).trans (first.pending id isReserved)
  queue := fun place => (second.queue place).trans (first.queue place)
  jobs := by
    intro job member
    rcases second.jobs job member with earlier | off
    · exact first.jobs job earlier
    · exact Or.inr off

theorem Aside.pop (guarded : inquiry.Guarded run) {job : Job} {rest : List Job}
    (isReady : run.ready = job :: rest) (off : job.Off inquiry.reserve) :
    inquiry.Aside run { run with ready := rest } where
  off := ⟨guarded.off.tasks, guarded.off.groups⟩
  next := Nat.le_refl _
  issued := Nat.le_refl _
  tasks := fun _ _ => rfl
  finished := fun _ _ => rfl
  groups := fun _ _ => rfl
  pending := fun _ _ => rfl
  queue := by
    intro place
    rw [queue_pop isReady place, place?_of_off off, if_neg (by simp)]
  jobs := fun other member => Or.inl (isReady ▸ List.mem_cons_of_mem job member)

theorem Aside.taking (guarded : inquiry.Guarded run) (command : BridgeCommand) :
    inquiry.Aside run (run.taking command) where
  off := ⟨guarded.off.tasks, guarded.off.groups⟩
  next := Nat.le_succ _
  issued := (run.taking_gains command).next
  tasks := fun _ _ => rfl
  finished := fun _ _ => rfl
  groups := fun _ _ => rfl
  pending := by
    intro id ⟨context, member, isId⟩
    exact (run.taking_gains command).old id (isId ▸ guarded.requests context member)
  queue := fun _ => rfl
  jobs := fun _ member => Or.inl member

theorem Aside.act (guarded : inquiry.Guarded run) (event : BridgeEvent)
    (spares : run.Spares inquiry.reserve event)
    (head : ∀ job rest, event = .step → run.ready = job :: rest → job.Off inquiry.reserve) :
    inquiry.Aside run (run.act event) := by
  have begun : inquiry.Aside run (run.beginning event) := by
    cases event with
    | command command => exact .taking guarded command
    | step =>
      simp only [Run.beginning]
      cases isReady : run.ready with
      | nil =>
        simp only [List.tail_nil]
        rw [← isReady]
        exact .of_apart guarded (.refl run)
      | cons job rest => exact .pop guarded isReady (head job rest rfl isReady)
    | _ => exact .of_apart guarded (.refl run)
  exact begun.trans (.of_apart (guarded.aside begun) (Run.apart_act guarded.off spares))

end Inquiry

end LanguageBridge
