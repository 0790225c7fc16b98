import LanguageBridge.Proofs.Bridge.Inquiry
import Mathlib.Logic.Function.Basic

namespace LanguageBridge

/-! The members of a request to all languages are asked, wait and report in any order; the task that has
split learns once of each of them, and then it ends. -/

namespace Inquiry

variable {inquiry : Inquiry} {phase : Nat → Phase} {before run after : Run} {index : Nat}
  {context : Context}

/-! ### What members do -/

open Function (update)

theorem slots_update {next : Phase} (before : phase index ≠ .reported) (after : next ≠ .reported) :
    inquiry.slots (update phase index next) = inquiry.slots phase := by
  refine List.ext_getElem? fun place => ?_
  simp only [slots, List.getElem?_mapIdx]
  by_cases same : place = index
  · simp [same, before, after]
  · rw [Function.update_of_ne same]

theorem slots_reported (here : inquiry.contexts[index]? = some context) :
    inquiry.slots (update phase index .reported) =
      (inquiry.slots phase).set index (some (inquiry.told context)) := by
  refine List.ext_getElem? fun place => ?_
  simp only [slots, List.getElem?_set, List.getElem?_mapIdx, List.length_mapIdx]
  by_cases same : index = place
  · subst same
    rw [if_pos rfl, if_pos (within here), here]
    simp
  · rw [if_neg same, Function.update_of_ne (Ne.symm same)]

theorem all_slots_isSome : (inquiry.slots phase).all Option.isSome = true ↔
    inquiry.AllReported phase := by
  simp only [List.all_eq_true, slots, AllReported]
  constructor
  · intro all place known
    have filled := all _ (List.getElem_mem (show place < (inquiry.slots phase).length by
      simpa [slots] using known))
    simpa [slots] using filled
  · intro all slot member
    obtain ⟨place, known, isSlot⟩ := List.getElem_of_mem member
    simp only [List.length_mapIdx] at known
    simp [← isSlot, all place known]

theorem not_allReported_update {next : Phase} (here : inquiry.contexts[index]? = some context)
    (after : next ≠ .reported) : ¬ inquiry.AllReported (update phase index next) := by
  intro all
  have := all index (within here)
  rw [Function.update_self] at this
  exact after this

/-- Only this member has a part in what happens. -/
structure Moves (inquiry : Inquiry) (index : Nat) (context : Context) (before after : Run) : Prop where
  tasks : ∀ task, task ≠ inquiry.member index → after.tasks.get? task = before.tasks.get? task
  pending : ∀ id, id ≠ context.id → after.bridge.router.pending.contexts.get? id =
    before.bridge.router.pending.contexts.get? id
  issued : after.bridge.router.pending.next = before.bridge.router.pending.next
  store : after.bridge.store = before.bridge.store
  finished : after.finished = before.finished
  groups : after.groups = before.groups
  nextTask : after.nextTask = before.nextTask
  queue : ∀ place, place ≠ index + 1 → inquiry.queue after place = inquiry.queue before place
  jobs : ∀ job ∈ after.ready, job ∈ before.ready ∨ inquiry.place? job = some (index + 1)

theorem Moves.refl (run : Run) : inquiry.Moves index context run run :=
  ⟨fun _ _ => rfl, fun _ _ => rfl, rfl, rfl, rfl, rfl, rfl, fun _ _ => rfl, fun _ => Or.inl⟩

theorem Underway.move {next : Phase} (underway : inquiry.Underway phase before)
    (here : inquiry.contexts[index]? = some context) (moves : inquiry.Moves index context before after)
    (unreported : phase index ≠ .reported) (unfinished : next ≠ .reported)
    (stage : inquiry.Stage after index context next) :
    inquiry.Underway (update phase index next) after where
  off := by
    refine ⟨fun task activity other found => ?_, moves.groups ▸ underway.off.groups⟩
    have different : task ≠ inquiry.member index := fun same => other (same ▸ reserve_member here)
    exact underway.off.tasks task activity other (moves.tasks task different ▸ found)
  tasks := moves.nextTask ▸ underway.tasks
  requests := moves.issued ▸ underway.requests
  jobs := by
    intro job member
    rcases moves.jobs job member with earlier | isHere
    · exact underway.jobs job earlier
    · exact Or.inr ⟨index + 1, within here, isHere⟩
  store := moves.store.trans underway.store
  gathering := (moves.tasks _ parent_ne_member).trans underway.gathering
  unfinished := moves.finished ▸ underway.unfinished
  group := by
    rw [moves.groups, underway.group]
    simp only [Inquiry.group, slots_update unreported unfinished]
  called := by
    have before : ¬ inquiry.AllReported phase := fun all => unreported (all index (within here))
    rw [moves.queue 0 (Nat.succ_ne_zero index).symm, underway.called, call, call, if_neg before,
      if_neg (not_allReported_update here unfinished)]
  members := by
    intro other another there
    by_cases same : other = index
    · subst same
      rw [here] at there
      cases there
      rw [Function.update_self]
      exact stage
    · rw [Function.update_of_ne same]
      exact (underway.members other another there).congr (moves.queue _ (by omega))
        (moves.tasks _ (member_injective same)) (moves.pending _ (id_ne here there same))

theorem queue_head {job own : Job} {rest : List Job} {place : Nat} (isReady : run.ready = job :: rest)
    (isPlace : inquiry.place? job = some place) (alone : inquiry.queue run place = [own]) :
    job = own ∧ inquiry.queue { run with ready := rest } place = [] := by
  rw [queue_pop isReady place, if_pos isPlace] at alone
  exact List.cons.inj alone

theorem Underway.pop {next : Phase} {job : Job} {rest : List Job}
    (underway : inquiry.Underway phase run) (here : inquiry.contexts[index]? = some context)
    (unreported : phase index ≠ .reported) (unfinished : next ≠ .reported)
    (isReady : run.ready = job :: rest) (isPlace : inquiry.place? job = some (index + 1))
    (stage : inquiry.Stage { run with ready := rest } index context next) :
    inquiry.Underway (update phase index next) { run with ready := rest } := by
  refine underway.move here { Moves.refl run with queue := ?_, jobs := ?_ } unreported unfinished stage
  · intro place different
    have elsewhere : inquiry.place? job ≠ some place := by
      rw [isPlace]
      exact fun same => different (Option.some.inj same).symm
    rw [queue_pop isReady place, if_neg elsewhere]
  · exact fun other member => Or.inl (isReady ▸ List.mem_cons_of_mem job member)

theorem Underway.wake (underway : inquiry.Underway phase run)
    (here : inquiry.contexts[index]? = some context) (waiting : phase index = .waiting) :
    inquiry.Underway (update phase index .atWork) run := by
  have stage := underway.members index context here
  rw [waiting] at stage
  exact underway.move here (.refl run) (by simp [waiting]) (by simp) ⟨stage.1, stage.2.2⟩

variable (inquiry) in
/-- A member has had its turn. -/
def Proceeds (phase : Nat → Phase) (index : Nat) (after : Run) : Prop :=
  ∃ next : Phase, next.Lasting ∧ inquiry.Underway (update phase index next) after

theorem told_of_said {said : Said} (heard : said = inquiry.said context.language) :
    inquiry.told context = said.outcome inquiry.store context := by
  rw [told, heard]

section

variable (underway : inquiry.Underway phase run) (here : inquiry.contexts[index]? = some context)
  (atWork : phase index = .atWork)
include underway here atWork

theorem Underway.block {activity : Activity} (waits : inquiry.Waits index context activity)
    (held : Table String Nat) (startUps : Table String StartUp) :
    inquiry.Underway (update phase index .waiting)
      { run.block (inquiry.member index) activity with held := held, startUps := startUps } := by
  have stage := atWork ▸ underway.members index context here
  refine underway.move here { Moves.refl run with tasks := ?_ } (by simp [atWork]) (by simp)
    ⟨stage.1, ⟨activity, ?_, waits⟩, stage.2⟩
  · intro task different
    simp [Run.block, Table.get?_put, different]
  · simp [Run.block, Table.get?_put]

theorem Underway.deliver {router : Router}
    (left : router.pending = run.bridge.router.pending.discard context.id) :
    inquiry.Underway (update phase index .reporting)
      ((run.setBridge { run.bridge with router := router }).deliver (inquiry.member index)
        (.member inquiry.parent index) (inquiry.told context)) := by
  have stage := atWork ▸ underway.members index context here
  have isPlace : inquiry.place? (.report inquiry.parent index (inquiry.told context)) =
      some (index + 1) := by simp [place?]
  refine underway.move here ⟨?_, ?_, ?_, rfl, rfl, rfl, rfl, ?_, ?_⟩ (by simp [atWork]) (by simp)
    ⟨?_, ?_⟩
  · intro task different
    simp [Run.deliver, Run.enqueue, Run.setBridge, Table.get?_erase, different]
  · intro id different
    simp [Run.deliver, Run.enqueue, Run.setBridge, left, Pending.discard, Table.get?_erase, different]
  · simp [Run.deliver, Run.enqueue, Run.setBridge, left, Pending.discard]
  · intro place different
    simp [queue, Run.deliver, Run.enqueue, Run.setBridge, isPlace, Ne.symm different]
  · intro job member
    rcases List.mem_append.mp member with earlier | isReport
    · exact Or.inl earlier
    · rw [List.mem_singleton.mp isReport]
      exact Or.inr isPlace
  · have nothing := stage.1
    simp only [queue] at nothing
    simp [queue, Run.deliver, Run.enqueue, Run.setBridge, isPlace, nothing]
  · simp [Run.deliver, Run.enqueue, Run.setBridge, Table.get?_erase]

theorem Underway.leave {said : Said} (heard : said = inquiry.said context.language) :
    inquiry.Proceeds phase index (run.leave (inquiry.member index) context
      (.member inquiry.parent index) (said.outcome inquiry.store context)) := by
  rw [← told_of_said heard]
  exact ⟨.reporting, by simp [Phase.Lasting], underway.deliver here atWork rfl⟩

theorem Underway.conclude {attempt : Attempt Unit Answer}
    (heard : ∀ said, attempt.said? = some said → said = inquiry.said context.language) :
    inquiry.Proceeds phase index (run.conclude (inquiry.member index) context
      (.member inquiry.parent index) attempt) := by
  cases attempt with
  | blocked key stage =>
    exact ⟨.waiting, by simp [Phase.Lasting], underway.block here atWork (Or.inl rfl) _ run.startUps⟩
  | done outcome =>
    cases outcome with
    | error fault => exact underway.leave here atWork (heard (.failure fault) rfl)
    | ok answer =>
      have stage := atWork ▸ underway.members index context here
      have completed : run.bridge.router.complete context.id = .ok (context,
          { run.bridge.router with pending := run.bridge.router.pending.discard context.id }) := by
        simp [Router.complete, Pending.consume, stage.2]
      have told : inquiry.told context =
          (run.bridge.store.bringBack context answer).1.map .answer := by
        rw [underway.store]
        exact told_of_said (heard (.result answer) rfl)
      simp only [Run.conclude, completed]
      rw [← told]
      exact ⟨.reporting, by simp [Phase.Lasting], underway.deliver here atWork rfl⟩

theorem Underway.ask {server : Nat}
    (heard : ∀ said, run.answered? context server = some said → said = inquiry.said context.language) :
    inquiry.Proceeds phase index (run.ask (inquiry.member index) context server
      (.member inquiry.parent index)) := by
  have asked : Run.Apart inquiry.reserve run (run.setBridge (run.bridge.setLink server
      ((run.bridge.link server).request context.method context.params).1)) :=
    .setBridge (.routine (.request _ _ _))
  exact (underway.aside (.of_apart underway.toGuarded asked) asked.store).conclude here atWork heard

theorem Underway.send
    (heard : ∀ said, run.saidToSent? context = some said → said = inquiry.said context.language) :
    inquiry.Proceeds phase index (run.send (inquiry.member index) context
      (.member inquiry.parent index)) := by
  have apart : Run.Apart inquiry.reserve run (run.ensure context.language).1 :=
    run.apart_ensure context.language
  have stays := underway.aside (.of_apart underway.toGuarded apart) apart.store
  simp only [Run.send]
  simp only [Run.saidToSent?] at heard
  rcases isEnsured : run.ensure context.language with ⟨ensured, readiness⟩
  rw [isEnsured] at stays
  simp only [isEnsured] at heard
  cases readiness with
  | ready server => exact stays.ask here atWork heard
  | absent => exact stays.leave here atWork (heard .nobody rfl)
  | raised fault => exact stays.leave here atWork (heard (.failure fault) rfl)
  | starting server =>
    exact ⟨.waiting, by simp [Phase.Lasting],
      stays.block here atWork (Or.inr ⟨server, rfl⟩) ensured.held _⟩

theorem Underway.resumeSend {server : Nat} {outcome : Except Fault Bool}
    (heard : ∀ said, run.saidToWaiting? (.requesting context server (.member inquiry.parent index))
      (.started outcome) = some said → said = inquiry.said context.language) :
    inquiry.Proceeds phase index (run.resumeSend (inquiry.member index) context server
      (.member inquiry.parent index) outcome) := by
  cases outcome with
  | error fault => exact underway.leave here atWork (heard (.failure fault) rfl)
  | ok up =>
    cases up with
    | false => exact underway.leave here atWork (heard .nobody rfl)
    | true => exact underway.ask here atWork heard

end

/-! ### Reports -/

theorem report_eq (found : run.groups.get? inquiry.parent = some (inquiry.group phase))
    (here : inquiry.contexts[index]? = some context) :
    run.report inquiry.parent index (inquiry.told context) =
      { run with
        groups := run.groups.put inquiry.parent (inquiry.group (update phase index .reported))
        ready := run.ready ++ inquiry.call (update phase index .reported) } := by
  have slots : (inquiry.group phase).outcomes.set index (some (inquiry.told context)) =
      inquiry.slots (update phase index .reported) := (slots_reported here).symm
  simp only [Run.report, found, slots, all_slots_isSome, call]
  split
  · rfl
  · rw [List.append_nil]
    rfl

theorem place?_of_mem_call {job : Job} (member : job ∈ inquiry.call phase) :
    inquiry.place? job = some 0 := by
  simp only [call] at member
  split at member
  · rw [List.mem_singleton.mp member]
    simp [place?]
  · contradiction

theorem filter_call (place : Nat) :
    (inquiry.call phase).filter (fun job => inquiry.place? job = some place) =
      if place = 0 then inquiry.call phase else [] := by
  split
  · rename_i isZero
    rw [List.filter_eq_self]
    intro job member
    simp [isZero, place?_of_mem_call member]
  · rename_i isMember
    rw [List.filter_eq_nil_iff]
    intro job member
    simp [place?_of_mem_call member, Ne.symm isMember]

theorem Underway.note (underway : inquiry.Underway phase run)
    (here : inquiry.contexts[index]? = some context) (leaving : phase index = .leaving) :
    inquiry.Underway (update phase index .reported)
      (run.report inquiry.parent index (inquiry.told context)) := by
  rw [report_eq underway.group here]
  have queue (place : Nat) : inquiry.queue
      { run with
        groups := run.groups.put inquiry.parent (inquiry.group (update phase index .reported))
        ready := run.ready ++ inquiry.call (update phase index .reported) } place =
      inquiry.queue run place ++
        if place = 0 then inquiry.call (update phase index .reported) else [] := by
    simp only [Inquiry.queue, List.filter_append, filter_call]
  exact {
    off := by
      refine ⟨underway.off.tasks, fun task group other found => ?_⟩
      have different : task ≠ inquiry.parent := fun same => other (same ▸ reserve_parent)
      refine underway.off.groups task group other ?_
      simpa [Table.get?_put, different] using found
    tasks := underway.tasks
    requests := underway.requests
    jobs := by
      intro job member
      rcases List.mem_append.mp member with earlier | new
      · exact underway.jobs job earlier
      · exact Or.inr ⟨0, Nat.zero_le _, place?_of_mem_call new⟩
    store := underway.store
    gathering := underway.gathering
    unfinished := underway.unfinished
    group := by simp [Table.get?_put]
    called := by
      have before : ¬ inquiry.AllReported phase := by
        intro all
        have := all index (within here)
        simp [leaving] at this
      have nothing := underway.called
      rw [call, if_neg before] at nothing
      rw [queue, nothing, if_pos rfl, List.nil_append]
    members := by
      intro other another there
      have stage := underway.members other another there
      have same := (queue (other + 1)).trans (List.append_nil _)
      by_cases isOwn : other = index
      · subst isOwn
        rw [Function.update_self]
        rw [leaving] at stage
        exact (Stage.congr stage same rfl rfl : inquiry.Stage _ other another .leaving)
      · rw [Function.update_of_ne isOwn]
        exact stage.congr same rfl rfl }

/-! ### The end -/

theorem slots_of_allReported (all : inquiry.AllReported phase) :
    (inquiry.slots phase).filterMap id = inquiry.contexts.map inquiry.told := by
  have filled : inquiry.slots phase = (inquiry.contexts.map inquiry.told).map some := by
    refine List.ext_getElem? fun place => ?_
    simp only [slots, List.getElem?_mapIdx, List.getElem?_map]
    cases here : inquiry.contexts[place]? with
    | none => rfl
    | some context => simp [all place (within here)]
  rw [filled, List.filterMap_map]
  simp

theorem Underway.off_of_allReported {job : Job} {rest : List Job}
    (underway : inquiry.Underway phase run) (all : inquiry.AllReported phase)
    (isReady : run.ready = job :: rest) (isPlace : inquiry.place? job = some 0) :
    ∀ other ∈ rest, other.Off inquiry.reserve := by
  intro other member
  have inReady : other ∈ run.ready := isReady ▸ List.mem_cons_of_mem job member
  rcases underway.jobs other inReady with off | ⟨place, known, isThere⟩
  · exact off
  · exfalso
    cases place with
    | zero =>
      have called := underway.called
      rw [call, if_pos all] at called
      have nothing := (queue_head isReady isPlace called).2
      have : other ∈ inquiry.queue { run with ready := rest } 0 :=
        List.mem_filter.mpr ⟨member, by simpa using isThere⟩
      rw [nothing] at this
      contradiction
    | succ index =>
      have stage := underway.members index _ (List.getElem?_eq_getElem known)
      rw [all index known] at stage
      have : other ∈ inquiry.queue run (index + 1) :=
        List.mem_filter.mpr ⟨inReady, by simpa using isThere⟩
      rw [stage.1] at this
      contradiction

theorem Underway.gather {rest : List Job} (underway : inquiry.Underway phase run)
    (all : inquiry.AllReported phase)
    (isReady : run.ready = .resume inquiry.parent .gathered :: rest) :
    inquiry.Ended (({ run with ready := rest } : Run).gathered inquiry.parent) := by
  have off := underway.off_of_allReported all isReady (by simp [place?])
  have outcomes : (inquiry.group phase).outcomes.filterMap id = inquiry.contexts.map inquiry.told :=
    slots_of_allReported all
  let closed : Run := { run with ready := rest, groups := run.groups.erase inquiry.parent }
  have guarded : inquiry.Guarded closed := by
    refine ⟨⟨underway.off.tasks, fun task group other found => ?_⟩, underway.tasks, underway.requests⟩
    have different : task ≠ inquiry.parent := fun same => other (same ▸ reserve_parent)
    refine underway.off.groups task group other ?_
    simpa [closed, Table.get?_erase, different] using found
  have logs : Run.Apart inquiry.reserve closed (Run.logFailures inquiry.method.name closed
      ((inquiry.contexts.map Context.language).zip (inquiry.contexts.map inquiry.told))) :=
    Run.logFailures_induction (fun _ _ _ apart => apart.log _ _) _ _ (.refl closed)
  have aside := Aside.of_apart guarded logs
  -- Failures are logged before the end, which is of no concern to the inquiry.
  have isGathered : ({ run with ready := rest } : Run).gathered inquiry.parent =
      (Run.logFailures inquiry.method.name closed
        ((inquiry.contexts.map Context.language).zip (inquiry.contexts.map inquiry.told))).finish
          inquiry.parent (Run.fanOutOutcome inquiry.method (inquiry.contexts.map inquiry.told)) := by
    simp only [Run.gathered, underway.group, outcomes]
    rfl
  rw [isGathered]
  generalize Run.logFailures inquiry.method.name closed _ = logged at aside
  have stays := guarded.aside aside
  refine ⟨⟨⟨fun task activity other found => ?_, stays.off.groups⟩, stays.tasks, stays.requests⟩,
    ?_, ?_, ?_⟩
  · have different : task ≠ inquiry.parent := fun same => other (same ▸ reserve_parent)
    refine stays.off.tasks task activity other ?_
    simpa [Run.finish, Table.get?_erase, different] using found
  · intro job member
    exact (aside.jobs job member).elim (off job) id
  · intro task isReserved
    rcases reserve_cases isReserved with isParent | ⟨index, context, here, isMember⟩
    · simp [Run.finish, Table.get?_erase, isParent]
    · have stage := underway.members index context here
      rw [all index (within here)] at stage
      have absent : logged.tasks.get? task = none := by
        rw [aside.tasks task isReserved, isMember]
        exact stage.2
      simp [Run.finish, Table.get?_erase, absent]
  · simp [Run.finish, Table.get?_put]

/-! ### Steps and runs -/

variable (inquiry) in
/-- How the inquiry stands between two steps. -/
def Stands (run : Run) : Prop :=
  (∃ phase, (∀ index, (phase index).Lasting) ∧ inquiry.Underway phase run) ∨ inquiry.Ended run

theorem lasting_update {next : Phase} (lasting : ∀ index, (phase index).Lasting)
    (nextLasting : next.Lasting) (place : Nat) : (update phase index next place).Lasting := by
  by_cases same : place = index
  · rw [same, Function.update_self]
    exact nextLasting
  · rw [Function.update_of_ne same]
    exact lasting place

theorem Proceeds.stands (lasting : ∀ index, (phase index).Lasting) {stage : Phase}
    (proceeds : inquiry.Proceeds (update phase index stage) index after) : inquiry.Stands after := by
  obtain ⟨next, nextLasting, underway⟩ := proceeds
  rw [Function.update_idem] at underway
  exact Or.inl ⟨_, lasting_update lasting nextLasting, underway⟩

variable (inquiry) in
/-- The members hear from a job what is said in their languages. -/
def Hears (run : Run) (job : Job) : Prop :=
  ∀ index context heard, inquiry.contexts[index]? = some context →
    run.heard? job = some (inquiry.member index, heard) → heard = inquiry.said context.language

theorem Underway.resume {task : Nat} {signal : Signal} {activity : Activity}
    (underway : inquiry.Underway phase run) (lasting : ∀ index, (phase index).Lasting)
    (isReserved : inquiry.reserve.task task) (off : (Job.resume task signal).Off inquiry.reserve)
    (found : run.tasks.get? task = some activity) (hears : inquiry.Hears run (.resume task signal)) :
    inquiry.Stands (run.resume task activity signal) := by
  have unmoved : inquiry.Stands run := Or.inl ⟨phase, lasting, underway⟩
  rcases reserve_cases isReserved with isParent | ⟨index, context, here, isMember⟩
  · rw [isParent, underway.gathering] at found
    cases found
    cases signal with
    | started outcome => exact unmoved
    | reply reply => exact unmoved
    | gathered => exact absurd isReserved off
    | cancelled => exact absurd isReserved off
  · subst isMember
    have stage := underway.members index context here
    -- In all other phases nothing is blocked under the number of the member.
    have waiting : phase index = .waiting := by
      cases isPhase : phase index with
      | waiting => rfl
      | atWork => exact absurd isPhase (lasting index).1
      | leaving => exact absurd isPhase (lasting index).2
      | queued =>
        rw [isPhase] at stage
        cases stage.2.1.symm.trans found
      | reporting =>
        rw [isPhase] at stage
        cases stage.2.symm.trans found
      | reported =>
        rw [isPhase] at stage
        cases stage.2.symm.trans found
    rw [waiting] at stage
    obtain ⟨same, isFound, waits⟩ := stage.2.1
    cases isFound.symm.trans found
    have woken := underway.wake here waiting
    have heard (said : Said) (isSaid : run.saidToWaiting? activity signal = some said) :
        said = inquiry.said context.language := by
      refine hears index context said here ?_
      simp [Run.heard?, found, isSaid]
    cases signal with
    | gathered => exact absurd isReserved off
    | cancelled => exact absurd isReserved off
    | started outcome =>
      rcases waits with isAnswering | ⟨server, isRequesting⟩
      · subst isAnswering
        exact unmoved
      · subst isRequesting
        exact (woken.resumeSend here (Function.update_self ..) heard).stands lasting
    | reply reply =>
      rcases waits with isAnswering | ⟨server, isRequesting⟩
      · subst isAnswering
        exact (woken.conclude here (Function.update_self ..) heard).stands lasting
      · subst isRequesting
        exact unmoved

theorem Underway.perform_own {job : Job} {rest : List Job} (underway : inquiry.Underway phase run)
    (lasting : ∀ index, (phase index).Lasting) (here : inquiry.contexts[index]? = some context)
    (isReady : run.ready = job :: rest) (isPlace : inquiry.place? job = some (index + 1))
    (hears : inquiry.Hears { run with ready := rest } job) :
    inquiry.Stands (({ run with ready := rest } : Run).perform job) := by
  have stage := underway.members index context here
  have occupied : inquiry.queue run (index + 1) ≠ [] := by
    rw [queue_pop isReady, if_pos isPlace]
    exact List.cons_ne_nil _ _
  cases isPhase : phase index with
  | queued =>
    rw [isPhase] at stage
    obtain ⟨isJob, nothing⟩ := queue_head isReady isPlace stage.1
    have begun : inquiry.Underway (update phase index .atWork) { run with ready := rest } :=
      underway.pop here (by simp [isPhase]) (by simp) isReady isPlace ⟨nothing, stage.2.2⟩
    subst isJob
    -- Nobody has given up the inquiry, so the member sends its request.
    have sends : ({ run with ready := rest } : Run).perform
        (.send (inquiry.member index) context inquiry.parent index) =
          ({ run with ready := rest } : Run).send (inquiry.member index) context
            (.member inquiry.parent index) := by
      simp [Run.perform, Run.join, underway.group, Inquiry.group]
    rw [sends]
    refine (begun.send here (Function.update_self ..) fun said isSaid => ?_).stands lasting
    refine hears index context said here ?_
    simp [Run.heard?, isSaid]
  | reporting =>
    rw [isPhase] at stage
    obtain ⟨isJob, nothing⟩ := queue_head isReady isPlace stage.1
    have leaves : inquiry.Underway (update phase index .leaving) { run with ready := rest } :=
      underway.pop here (by simp [isPhase]) (by simp) isReady isPlace ⟨nothing, stage.2⟩
    subst isJob
    have noted := leaves.note here (Function.update_self ..)
    rw [Function.update_idem] at noted
    exact Or.inl ⟨_, lasting_update lasting (by simp [Phase.Lasting]), noted⟩
  | atWork => exact absurd isPhase (lasting index).1
  | leaving => exact absurd isPhase (lasting index).2
  | waiting =>
    rw [isPhase] at stage
    exact absurd stage.1 occupied
  | reported =>
    rw [isPhase] at stage
    exact absurd stage.1 occupied

theorem Underway.step (underway : inquiry.Underway phase run)
    (lasting : ∀ index, (phase index).Lasting)
    (store : (run.act .step).bridge.store = run.bridge.store)
    (hears : ∀ job rest, run.ready = job :: rest → inquiry.Hears { run with ready := rest } job) :
    inquiry.Stands (run.act .step) := by
  cases isReady : run.ready with
  | nil =>
    have unmoved : run.act .step = run := by simp [Run.act, Run.step?, isReady]
    rw [unmoved]
    exact Or.inl ⟨phase, lasting, underway⟩
  | cons job rest =>
    have acts : run.act .step = ({ run with ready := rest } : Run).perform job := by
      simp [Run.act, Run.step?, isReady]
    rcases underway.jobs job (isReady ▸ List.mem_cons_self) with off | ⟨place, known, isPlace⟩
    -- Anyone may pass on the end of a start or a reply, so that a member may be meant all the same.
    · have popped := underway.aside (.pop underway.toGuarded isReady off) rfl
      by_cases own : ∃ task signal activity, job = .resume task signal ∧
          run.tasks.get? task = some activity ∧ inquiry.reserve.task task
      · obtain ⟨task, signal, activity, isJob, found, isReserved⟩ := own
        subst isJob
        rw [acts]
        simp only [Run.perform, found]
        exact popped.resume lasting isReserved off found (hears _ rest isReady)
      · have spares : run.Spares inquiry.reserve .step := by
          intro other isNext
          rw [isReady] at isNext
          cases isNext
          exact ⟨off, fun task signal activity isJob found isReserved =>
            own ⟨task, signal, activity, isJob, found, isReserved⟩⟩
        refine Or.inl ⟨phase, lasting, underway.aside (.act underway.toGuarded .step spares ?_) store⟩
        intro other others _ isReadyToo
        rw [isReady] at isReadyToo
        cases isReadyToo
        exact off
    · rw [acts]
      cases place with
      | succ index =>
        exact underway.perform_own lasting (List.getElem?_eq_getElem known) isReady isPlace
          (hears job rest isReady)
      | zero =>
        have called := underway.called
        rw [queue_pop isReady, if_pos isPlace, call] at called
        split at called
        · rename_i all
          cases (List.cons.inj called).1
          simp only [Run.perform, underway.gathering, Run.resume]
          exact Or.inr (underway.gather all isReady)
        · contradiction

theorem Guarded.spares_command (guarded : inquiry.Guarded run) (command : BridgeCommand) :
    run.Spares inquiry.reserve (.command command) := by
  constructor
  · intro isReserved
    exact Nat.not_lt_of_le isReserved.2 guarded.tasks
  · intro issued isIssued ⟨context, member, same⟩
    have later := ((run.taking_gains command).numbers issued isIssued).1
    have earlier := guarded.requests context member
    omega

theorem Ended.act (ended : inquiry.Ended run) (event : BridgeEvent) :
    inquiry.Ended (run.act event) := by
  have absent (task : Nat) (activity : Activity) (found : run.tasks.get? task = some activity) :
      ¬ inquiry.reserve.task task := by
    intro isReserved
    rw [ended.tasks_none task isReserved] at found
    contradiction
  refine ended.aside (.act ended.toGuarded event ?_ ?_)
  · cases event with
    | command command => exact ended.spares_command command
    | step =>
      exact fun job isNext => ⟨ended.jobs job (List.mem_of_mem_head? isNext),
        fun task _ activity _ found => absent task activity found⟩
    | cancel task => exact absent task
    | _ => trivial
  · exact fun job rest _ isReady => ended.jobs job (isReady ▸ List.mem_cons_self)

theorem Stands.act (stands : inquiry.Stands run) {event : BridgeEvent}
    (hearing : Run.Hearing inquiry.parent (inquiry.contexts.map Context.language) inquiry.said run event) :
    inquiry.Stands (run.act event) := by
  rcases stands with ⟨phase, lasting, underway⟩ | ended
  · obtain ⟨store, hears⟩ := hearing
    have goesOn (spares : run.Spares inquiry.reserve event) (different : event ≠ .step) :
        inquiry.Stands (run.act event) :=
      Or.inl ⟨phase, lasting, underway.aside (.act underway.toGuarded event spares
        fun _ _ isStep _ => absurd isStep different) store⟩
    cases event with
    | command command => exact goesOn (underway.spares_command command) (by simp)
    | step =>
      refine underway.step lasting store fun job rest isReady index context heard here isHeard => ?_
      refine hears job rest index context.language heard isReady isHeard ?_
      rw [List.getElem?_map, here, Option.map_some]
    | reply key reply => exact goesOn trivial (by simp)
    | prepare peer call replies => exact goesOn trivial (by simp)
    | cancel task =>
      refine goesOn (fun _ _ isReserved => ?_) (by simp)
      have known := isReserved.2
      simp only [List.length_map] at hears
      have := isReserved.1
      omega
  · exact Or.inr (ended.act event)

end Inquiry

end LanguageBridge
