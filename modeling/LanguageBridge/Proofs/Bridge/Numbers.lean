import LanguageBridge.Proofs.Bridge.Apart

namespace LanguageBridge

/-! What an event does to tasks and requests that have nothing to do with it, whatever it is. Numbers
that were not given out yet are a case of this: nobody refers to them. -/

/-! ### Requests that are entered -/

/-- A table to which requests were added. The numbers before stand for what they stood for. -/
structure Pending.Gains (issued : List Context) (before after : Pending) : Prop where
  next : before.next ≤ after.next
  old : ∀ id, id < before.next → after.contexts.get? id = before.contexts.get? id
  numbers : ∀ context ∈ issued, before.next ≤ context.id ∧ context.id < after.next

namespace Pending

variable {issued : List Context} {before middle after : Pending}

theorem Gains.refl (pending : Pending) : Gains [] pending pending :=
  ⟨Nat.le_refl _, fun _ _ => rfl, by simp⟩

theorem Gains.cons {context : Context} (number : context.id = before.next)
    (next : middle.next = before.next + 1)
    (contexts : middle.contexts = before.contexts.put context.id context)
    (later : Gains issued middle after) : Gains (context :: issued) before after where
  next := by have := later.next; omega
  old := by
    intro id earlier
    rw [later.old id (by omega), contexts, Table.get?_put, if_neg (by omega)]
  numbers := by
    intro other member
    rcases List.mem_cons.mp member with isFirst | inRest
    · rw [isFirst]
      have := later.next
      omega
    · have := later.numbers other inRest
      omega

theorem Issues.gains (issues : before.Issues issued after) : Gains issued before after := by
  induction issued generalizing before with
  | nil =>
    cases issues
    exact .refl _
  | cons context rest ih => exact .cons issues.1 rfl rfl (ih issues.2)

theorem Issues.found (issues : before.Issues issued after) :
    ∀ context ∈ issued, after.contexts.get? context.id = some context := by
  induction issued generalizing before with
  | nil => simp
  | cons context rest ih =>
    obtain ⟨number, later⟩ := issues
    intro other member
    rcases List.mem_cons.mp member with isFirst | inRest
    · rw [isFirst, later.gains.old _ (by rw [number]; exact Nat.lt_succ_self _), Table.get?_put,
        if_pos rfl]
    · exact ih later other inRest

end Pending

namespace Router

variable {store : Store} {host : String} {method : Method} {params : Params}

theorem record_gains {router entered : Router} {language : String} {hostRange : Value}
    {result : Except Fault Context}
    (recorded : router.record method host language params hostRange = (entered, result)) :
    router.pending.Gains result.toOption.toList entered.pending := by
  simp only [record, Pending.record] at recorded
  cases encoded : Alias.encode host language with
  | error fault =>
    simp only [encoded] at recorded
    cases recorded
    exact ⟨Nat.le_succ _, fun _ _ => rfl, by simp [Except.toOption]⟩
  | ok aliasUri =>
    simp only [encoded] at recorded
    cases recorded
    exact .cons rfl rfl rfl (.refl _)

theorem record_memory {router entered : Router} {language : String} {hostRange : Value}
    {result : Except Fault Context}
    (recorded : router.record method host language params hostRange = (entered, result)) :
    entered.memory = router.memory := by
  simp only [record] at recorded
  cases recorded
  rfl

theorem fanOutOver_gains (languages : List String) (router : Router) :
    router.pending.Gains ((fanOutOver store host method params languages router).2.toOption.getD [])
        (fanOutOver store host method params languages router).1.pending ∧
      (fanOutOver store host method params languages router).1.memory = router.memory := by
  induction languages generalizing router with
  | nil => exact ⟨.refl _, rfl⟩
  | cons language rest ih =>
    simp only [fanOutOver]
    split
    · exact ih router
    · split
      · exact ih router
      · split
        · exact ⟨.refl _, rfl⟩
        · split
          · exact ⟨.refl _, rfl⟩
          · split
            · rename_i recorded
              exact ⟨record_gains recorded, record_memory recorded⟩
            · rename_i entered context recorded
              obtain ⟨first, memory⟩ := And.intro (record_gains recorded) (record_memory recorded)
              obtain ⟨others, memoryToo⟩ := ih entered
              refine ⟨?_, memoryToo.trans memory⟩
              rcases isLater : fanOutOver store host method params rest entered with ⟨later, result⟩
              rw [isLater] at others
              have known := first.numbers context (by simp [Except.toOption])
              refine ⟨Nat.le_trans first.next others.next, ?_, ?_⟩
              · intro id earlier
                rw [others.old id (Nat.lt_of_lt_of_le earlier first.next), first.old id earlier]
              · intro other member
                cases result with
                | error fault => simp [Except.map, Except.toOption] at member
                | ok contexts =>
                  have next := others.next
                  rcases List.mem_cons.mp (show other ∈ context :: contexts from member) with
                    isFirst | inRest
                  · rw [isFirst]
                    exact ⟨known.1, Nat.lt_of_lt_of_le known.2 next⟩
                  · have := others.numbers other inRest
                    exact ⟨Nat.le_trans first.next this.1, this.2⟩

theorem fanOut_memory (router : Router) (store : Store) (host : String) (method : Method)
    (params : Params) : (router.fanOut store host method params).1.memory = router.memory :=
  (fanOutOver_gains (store.languages host) router).2

theorem routeResolve_memory (router : Router) (item : Params) :
    (router.routeResolve item).1.memory = router.memory := by
  simp only [routeResolve]
  split
  · rfl
  · split
    · rfl
    · split <;> rfl

end Router

namespace Bridge

theorem taking_store (bridge : Bridge) (command : BridgeCommand) :
    (bridge.taking command).store = bridge.store ∨
      ∃ step, (bridge.taking command).store = bridge.store.apply step := by
  cases command with
  | openHost uri text languageId => exact Or.inr ⟨.openHost uri text languageId, rfl⟩
  | editHost uri text changed => exact Or.inr ⟨.update uri text changed, rfl⟩
  | closeHost uri => exact Or.inr ⟨.close uri, (bridge.closeHost_rests uri).1⟩
  | _ => exact Or.inl rfl

end Bridge

namespace Run

variable {reserve : Reserve} {run after : Run} {task : Nat}

theorem taking_gains (run : Run) (command : BridgeCommand) :
    run.bridge.router.pending.Gains (run.issued (.command command))
      (run.taking command).bridge.router.pending := by
  rw [router_taking]
  cases command with
  | dispatch uri position method params => exact (Router.route_issues _ _ uri position method params).gains
  | dispatchAll uri method params => exact (Router.fanOutOver_gains _ _).1
  | resolve item => exact (Router.routeResolve_issues _ item).gains
  | closeHost uri =>
    simp only [Bridge.taking, Bridge.closeHost_pending]
    exact .refl _
  | _ => exact .refl _

theorem apart_enter (command : BridgeCommand) (other : ¬ reserve.task run.nextTask)
    (own : ∀ context ∈ run.issued (.command command), ¬ reserve.request context.id) :
    Apart reserve (run.taking command) (run.enter command) := by
  by_cases stops : command = .shutdown
  · subst stops
    exact apart_stopServers other _ _ _
  · refine (run.turn_enter stops).apart other ⟨?_, ?_⟩
    · rw [requests_errandOf]
      exact own
    · cases command <;> trivial

/-! ### Cancellation -/

theorem apart_interrupt (other : ¬ reserve.task task) : Apart reserve run (run.interrupt task) := by
  refine Apart.trans (.rewait run _ _) (.enqueue fun job member => ?_)
  rw [List.mem_singleton.mp member]
  exact other

theorem apart_interruptGroup {group : Group} (other : ¬ reserve.task task)
    (found : run.groups.get? task = some group) (off : group.Off reserve) :
    Apart reserve run (run.interruptGroup task group) := by
  have all : ∀ (members : List Nat) (run : Run), (∀ member ∈ members, ¬ reserve.task member) →
      Apart reserve run (members.foldl interrupt run) := by
    intro members
    induction members with
    | nil => exact fun run _ => .refl run
    | cons member rest ih =>
      intro run others
      exact (apart_interrupt (others member List.mem_cons_self)).trans
        (ih _ fun later inRest => others later (List.mem_cons_of_mem member inRest))
  have marked : Apart reserve run
      { run with groups := run.groups.put task { group with cancelled := true } } :=
    .putGroup other found rfl
  refine marked.trans (all _ _ fun member isMember => ?_)
  exact off member (List.mem_filter.mp isMember).1

/-! ### Events -/

/-- Nobody outside of the reserve refers to it, as far as tasks are blocked. -/
structure Off (reserve : Reserve) (run : Run) : Prop where
  tasks : ∀ task activity, ¬ reserve.task task → run.tasks.get? task = some activity →
    activity.Off reserve
  groups : ∀ task group, ¬ reserve.task task → run.groups.get? task = some group →
    group.Off reserve

theorem Off.kept (off : run.Off reserve) (kept : Kept reserve run after) : after.Off reserve := by
  constructor
  · intro task activity other found
    rcases kept.otherTasks task activity other found with earlier | isOff
    · exact off.tasks task activity other earlier
    · exact isOff
  · intro task group other found
    rcases kept.otherGroups task group other found with ⟨earlier, foundEarlier, same⟩ | isOff
    · exact fun member isMember => off.groups task earlier other foundEarlier member (same ▸ isMember)
    · exact isOff

/-- The run in which an event begins. -/
def beginning (run : Run) : BridgeEvent → Run
  | .command command => run.taking command
  | .step => { run with ready := run.ready.tail }
  | _ => run

/-- An event that is not about the reserve. -/
def Spares (reserve : Reserve) (run : Run) : BridgeEvent → Prop
  | .command command => ¬ reserve.task run.nextTask ∧
      ∀ context ∈ run.issued (.command command), ¬ reserve.request context.id
  | .step => ∀ job, run.ready.head? = some job → job.Off reserve ∧
      ∀ task signal activity, job = .resume task signal → run.tasks.get? task = some activity →
        ¬ reserve.task task
  | .cancel task => ∀ activity, run.tasks.get? task = some activity → ¬ reserve.task task
  | _ => True

theorem apart_act (off : run.Off reserve) {event : BridgeEvent} (spares : run.Spares reserve event) :
    Apart reserve (run.beginning event) (run.act event) := by
  cases event with
  | command command => exact apart_enter command spares.1 spares.2
  | step =>
    simp only [act, step?, beginning]
    cases isReady : run.ready with
    | nil =>
      simp only [List.tail_nil, Option.getD_none]
      rw [← isReady]
      exact .refl run
    | cons job rest =>
      obtain ⟨isOff, other⟩ := spares job (by simp [isReady])
      exact (worked_perform _ job).apart isOff other off.tasks
  | reply key reply =>
    simp only [act, free?, beginning]
    cases run.held.get? key with
    | none => exact .refl run
    | some task =>
      refine Apart.trans (.rewait run _ run.startUps) (.enqueue fun job member => ?_)
      rw [List.mem_singleton.mp member]
      trivial
  | prepare peer call replies => exact .setBridge ⟨rfl, rfl, rfl, fun _ => .of_effects rfl⟩
  | cancel task =>
    simp only [act, withdraw?, beginning]
    cases waiting : run.tasks.get? task with
    | none => exact .refl run
    | some activity =>
      have other := spares activity waiting
      cases found : run.groups.get? task with
      | none => exact apart_interrupt other
      | some group => exact apart_interruptGroup other found (off.groups task group other found)

end Run

/-! ### Nothing set apart -/

def Reserve.nothing : Reserve where
  task := fun _ => False
  request := fun _ => False

/-- One task is set apart. -/
def Reserve.only (task : Nat) : Reserve where
  task := fun other => other = task
  request := fun _ => False

theorem Recipient.off_nothing (recipient : Recipient) : recipient.Off .nothing := by
  cases recipient <;> simp [Recipient.Off, Reserve.nothing]

theorem Activity.off_nothing (activity : Activity) : activity.Off .nothing := by
  cases activity <;> simp [Activity.Off, Recipient.off_nothing] <;> simp [Reserve.nothing]

theorem Job.off_nothing (job : Job) : job.Off .nothing := by
  cases job with
  | resume task signal => cases signal <;> simp [Job.Off, Reserve.nothing]
  | _ => simp [Job.Off, Reserve.nothing]

namespace Run

variable {run after : Run}

/-- What an event does to the hosts and to what is remembered of completions it does at its beginning. -/
theorem apart_nothing (run : Run) (event : BridgeEvent) :
    Apart .nothing (run.beginning event) (run.act event) := by
  refine apart_act ⟨fun _ activity _ _ => activity.off_nothing, fun _ _ _ _ _ _ => id⟩ ?_
  cases event with
  | command command => exact ⟨id, fun _ _ => id⟩
  | step => exact fun job _ => ⟨job.off_nothing, fun _ _ _ _ _ => id⟩
  | cancel task => exact fun _ _ => id
  | _ => trivial

/-- The store of a run is one that hosts have been opened, edited and closed in. -/
theorem reached_store {config : Config} {padding : Padding} {names : LanguageNames}
    {rules : Option (List Rule)} {root : Option String} {publishes : Bool} {editor : Editor}
    {allowed : Run → BridgeEvent → Prop} {events : List BridgeEvent}
    (reached : Reached act allowed (fresh config padding names rules root publishes editor) events run) :
    ∃ history, Reached Store.apply Anything (Store.fresh padding names rules) history
      run.bridge.store := by
  refine reached.invariant (fun run => ∃ history, Reached Store.apply Anything
    (Store.fresh padding names rules) history run.bridge.store) ⟨[], .start⟩ ?_
  intro run event _ ⟨history, kept⟩
  rw [(run.apart_nothing event).store]
  cases event with
  | command command =>
    rw [beginning, store_taking]
    rcases run.bridge.taking_store command with same | ⟨step, changed⟩
    · exact ⟨history, same ▸ kept⟩
    · exact ⟨step :: history, changed ▸ kept.step step trivial⟩
  | _ => exact ⟨history, kept⟩

/-! ### Numbers that were not given out -/

/-- The numbers that are still to come. -/
def future (run : Run) : Reserve where
  task := fun task => run.nextTask ≤ task
  request := fun id => run.bridge.router.pending.next ≤ id

/-- Nobody refers to what is still to come. -/
structure Unclaimed (run : Run) : Prop where
  ready : ∀ job ∈ run.ready, job.Off run.future
  off : run.Off run.future
  tasks : ∀ task, run.nextTask ≤ task → run.tasks.get? task = none
  finished : ∀ task, run.nextTask ≤ task → run.finished.get? task = none
  groups : ∀ task, run.nextTask ≤ task → run.groups.get? task = none

end Run

section Smaller

variable {larger smaller : Reserve} (task : ∀ number, smaller.task number → larger.task number)
include task

theorem Recipient.Off.mono {recipient : Recipient} (off : recipient.Off larger) :
    recipient.Off smaller := by
  cases recipient with
  | member parent index => exact fun isReserved => off (task parent isReserved)
  | _ => trivial

variable (request : ∀ number, smaller.request number → larger.request number)
include request

theorem Activity.Off.mono {activity : Activity} (off : activity.Off larger) :
    activity.Off smaller := by
  cases activity with
  | requesting context server recipient =>
    exact ⟨fun isReserved => off.1 (request _ isReserved), off.2.mono task⟩
  | answering context recipient =>
    exact ⟨fun isReserved => off.1 (request _ isReserved), off.2.mono task⟩
  | querying parent index => exact fun isReserved => off (task parent isReserved)
  | _ => trivial

theorem Job.Off.mono {job : Job} (off : job.Off larger) : job.Off smaller := by
  cases job with
  | launch number language server => exact fun isReserved => off (task number isReserved)
  | send number context parent index =>
    exact ⟨fun isReserved => off.1 (task number isReserved),
      fun isReserved => off.2.1 (request _ isReserved),
      fun isReserved => off.2.2 (task parent isReserved)⟩
  | search number server query parent index =>
    exact ⟨fun isReserved => off.1 (task number isReserved),
      fun isReserved => off.2 (task parent isReserved)⟩
  | resume number signal =>
    cases signal with
    | gathered => exact fun isReserved => off (task number isReserved)
    | cancelled => exact fun isReserved => off (task number isReserved)
    | _ => trivial
  | report parent index outcome => exact fun isReserved => off (task parent isReserved)
  | _ => trivial

end Smaller

namespace Run

variable {run after : Run}

theorem Unclaimed.off_of_later (unclaimed : run.Unclaimed) {reserve : Reserve}
    (task : ∀ number, reserve.task number → run.future.task number)
    (request : ∀ number, reserve.request number → run.future.request number) :
    run.Off reserve := by
  constructor
  · intro number activity _ found
    by_cases later : run.nextTask ≤ number
    · rw [unclaimed.tasks number later] at found
      contradiction
    · exact (unclaimed.off.tasks number activity later found).mono task request
  · intro number group _ found
    by_cases later : run.nextTask ≤ number
    · rw [unclaimed.groups number later] at found
      contradiction
    · exact fun member isMember isReserved =>
        unclaimed.off.groups number group later found member isMember (task member isReserved)

theorem beginning_later (run : Run) (event : BridgeEvent) :
    run.nextTask ≤ (run.beginning event).nextTask ∧
      run.bridge.router.pending.next ≤ (run.beginning event).bridge.router.pending.next := by
  cases event with
  | command command => exact ⟨Nat.le_succ _, (run.taking_gains command).next⟩
  | _ => exact ⟨Nat.le_refl _, Nat.le_refl _⟩

theorem beginning_tables (run : Run) (event : BridgeEvent) :
    (run.beginning event).tasks = run.tasks ∧ (run.beginning event).groups = run.groups ∧
      (run.beginning event).finished = run.finished ∧
      ∀ job ∈ (run.beginning event).ready, job ∈ run.ready := by
  cases event with
  | step => exact ⟨rfl, rfl, rfl, fun job => List.mem_of_mem_tail⟩
  | _ => exact ⟨rfl, rfl, rfl, fun job => id⟩

/-- What an event does to numbers that are still to come after it is nothing. -/
theorem Unclaimed.of_apart (unclaimed : run.Unclaimed) {event : BridgeEvent}
    (apart : Apart after.future (run.beginning event) after) : after.Unclaimed := by
  obtain ⟨tasks, groups, finished, ready⟩ := run.beginning_tables event
  obtain ⟨later, laterRequest⟩ := run.beginning_later event
  have task (number : Nat) (isReserved : after.nextTask ≤ number) : run.nextTask ≤ number :=
    Nat.le_trans (Nat.le_trans later apart.next) isReserved
  have request (number : Nat) (isReserved : after.bridge.router.pending.next ≤ number) :
      run.bridge.router.pending.next ≤ number :=
    Nat.le_trans (apart.issued ▸ laterRequest) isReserved
  have kept := apart.kept fun _ isReserved _ => isReserved
  have off : (run.beginning event).Off after.future := by
    have isOff : run.Off after.future := unclaimed.off_of_later task request
    exact ⟨tasks ▸ isOff.tasks, groups ▸ isOff.groups⟩
  refine ⟨?_, off.kept kept, ?_, ?_, ?_⟩
  · obtain ⟨more, isReady, moreOff⟩ := kept.ready
    intro job member
    rw [isReady] at member
    rcases List.mem_append.mp member with before | new
    · exact (unclaimed.ready job (ready job before)).mono task request
    · exact moreOff job new
  · intro number isReserved
    rw [kept.tasks number isReserved, tasks, unclaimed.tasks number (task number isReserved)]
  · intro number isReserved
    rw [kept.finished number isReserved, finished, unclaimed.finished number (task number isReserved)]
  · intro number isReserved
    rw [kept.groups number isReserved, groups, unclaimed.groups number (task number isReserved)]

theorem Unclaimed.spares (unclaimed : run.Unclaimed) {reserve : Reserve} (event : BridgeEvent)
    (task : ∀ number, reserve.task number → (run.beginning event).future.task number)
    (request : ∀ number, reserve.request number → (run.beginning event).future.request number) :
    run.Spares reserve event := by
  obtain ⟨later, laterRequest⟩ := run.beginning_later event
  have waits (number : Nat) (activity : Activity) (found : run.tasks.get? number = some activity) :
      ¬ reserve.task number := by
    intro isReserved
    rw [unclaimed.tasks number (Nat.le_trans later (task number isReserved))] at found
    contradiction
  cases event with
  | command command =>
    refine ⟨fun isReserved => Nat.not_succ_le_self _ (task _ isReserved), ?_⟩
    intro context isIssued isReserved
    have given := ((run.taking_gains command).numbers context isIssued).2
    exact Nat.not_le_of_lt given (request _ isReserved)
  | step =>
    intro job isNext
    exact ⟨(unclaimed.ready job (List.mem_of_mem_head? isNext)).mono task request,
      fun number _ activity _ found => waits number activity found⟩
  | cancel number => exact waits number
  | _ => trivial

theorem Unclaimed.act (unclaimed : run.Unclaimed) (event : BridgeEvent) :
    (run.act event).Unclaimed := by
  obtain ⟨later, laterRequest⟩ := run.beginning_later event
  have counts := run.apart_nothing event
  have task (number : Nat) (isReserved : (run.act event).nextTask ≤ number) :
      (run.beginning event).nextTask ≤ number :=
    Nat.le_trans counts.next isReserved
  have request (number : Nat) (isReserved : (run.act event).bridge.router.pending.next ≤ number) :
      (run.beginning event).bridge.router.pending.next ≤ number := by
    rw [← counts.issued]
    exact isReserved
  refine unclaimed.of_apart (apart_act ?_ (unclaimed.spares event task request))
  exact unclaimed.off_of_later (fun number isReserved => Nat.le_trans later (task number isReserved))
    (fun number isReserved => Nat.le_trans laterRequest (request number isReserved))

/-- Numbers that were not given out are unknown everywhere, in every run. -/
theorem unclaimed_of_reached {config : Config} {padding : Padding} {names : LanguageNames}
    {rules : Option (List Rule)} {root : Option String} {publishes : Bool} {editor : Editor}
    {events : List BridgeEvent}
    (reached : Reached act Anything (fresh config padding names rules root publishes editor)
      events run) : run.Unclaimed := by
  refine reached.invariant Unclaimed ?_ fun _ event _ unclaimed => unclaimed.act event
  refine ⟨?_, ⟨?_, ?_⟩, ?_, ?_, ?_⟩ <;> simp [fresh, Table.get?]

end Run

end LanguageBridge
