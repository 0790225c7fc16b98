import LanguageBridge.Proofs.Bridge.Closing
import LanguageBridge.Proofs.Bridge.Launching

namespace LanguageBridge

/-! Tasks that wait for a start are told of its end once, and of no other; those that start a child
server are never cancelled. -/

/-- The tasks that wait for a start, as long as it has not ended. -/
def StartUp.audience (startUp : StartUp) : List Nat :=
  if startUp.settled.isNone then startUp.waiters else []

namespace Bridge

/-- Starts that have ended stay as they have ended. -/
structure KeepsEnds (before after : Bridge) : Prop where
  current : ∀ language server, before.current.get? language = some server →
    after.current.get? language = some server
  ended : ∀ language server outcome, before.current.get? language = some server →
    (before.link server).server.Ended before.root outcome →
      (after.link server).server.Ended after.root outcome

variable {bridge before after : Bridge}

theorem KeepsEnds.refl (bridge : Bridge) : bridge.KeepsEnds bridge :=
  ⟨fun _ _ => id, fun _ _ _ _ => id⟩

theorem Grows.keepsEnds (grows : before.Grows [] after) : before.KeepsEnds after where
  current := grows.current
  ended := by
    intro language server outcome found ended
    rw [grows.root]
    exact ended.kept (grows.keeps_started found List.not_mem_nil)
      (grows.keeps_failed found List.not_mem_nil)

/-- The server at work has not been tried before, so there is nothing to know about it. -/
theorem Grows.keepsEnds_of_fresh {language : String} {server : Nat}
    (grows : before.Grows [language] after) (found : before.current.get? language = some server)
    (down : (before.link server).server.started = false)
    (untried : (before.link server).server.failed = false) : before.KeepsEnds after where
  current := grows.current
  ended := by
    intro wanted wantedServer outcome wantedFound ended
    rw [grows.root]
    by_cases same : wanted = language
    · subst same
      cases found.symm.trans wantedFound
      rcases outcome with fault | up
      · exact ended
      · cases up with
        | false => simp [ChildServer.Ended, untried] at ended
        | true => simp [ChildServer.Ended, down] at ended
    · have other : wanted ∉ [language] := by simpa using same
      exact ended.kept (grows.keeps_started wantedFound other) (grows.keeps_failed wantedFound other)

end Bridge

namespace Run

/-! ### Tasks that start child servers -/

/-- The task starts a child server, or is about to. -/
def Starts (run : Run) (task : Nat) : Prop :=
  (∃ language server, .launch task language server ∈ run.ready) ∨
    ∃ activity, run.tasks.get? task = some activity ∧ activity.launched? ≠ none

/-- The task is to be cancelled, or would be together with the one it belongs to. -/
def Exposed (run : Run) (task : Nat) : Prop :=
  .resume task .cancelled ∈ run.ready ∨
    ∃ parent group, run.groups.get? parent = some group ∧ task ∈ group.members

def Spared (run : Run) : Prop :=
  ∀ task, run.Exposed task → task < run.nextTask ∧ ¬ run.Starts task

variable {run middle after : Run} {task : Nat} {language : String} {server : Nat}

theorem Starts.mem_numbers (starts : run.Starts task) : task ∈ run.numbers := by
  rcases starts with ⟨language, server, queued⟩ | ⟨activity, held, _⟩
  · exact List.mem_append_right _ (List.mem_filterMap.mpr ⟨_, queued, rfl⟩)
  · exact List.mem_append_left _ (List.mem_filterMap.mpr ⟨_, Table.mem_entries_of_get? held, rfl⟩)

theorem Exposed.earlier (exposed : after.Exposed task) (ready : after.ready = run.ready)
    (groups : run.SameMembers after) : run.Exposed task := by
  rcases exposed with queued | ⟨parent, group, found, member⟩
  · exact Or.inl (ready ▸ queued)
  · obtain ⟨earlier, known, same⟩ := groups parent group found
    exact Or.inr ⟨parent, earlier, known, same ▸ member⟩

theorem Spared.kept (spared : run.Spared) (nextTask : run.nextTask ≤ after.nextTask)
    (exposed : ∀ task, after.Exposed task → run.Exposed task)
    (starts : ∀ task, task < run.nextTask → after.Starts task → run.Starts task) : after.Spared := by
  intro task isExposed
  obtain ⟨below, unstarted⟩ := spared task (exposed task isExposed)
  exact ⟨Nat.lt_of_lt_of_le below nextTask, fun isStart => unstarted (starts task below isStart)⟩

theorem Spared.congr (spared : run.Spared) (nextTask : after.nextTask = run.nextTask)
    (tasks : after.tasks = run.tasks) (ready : after.ready = run.ready)
    (groups : run.SameMembers after) : after.Spared := by
  refine spared.kept (Nat.le_of_eq nextTask.symm) (fun _ exposed => exposed.earlier ready groups) ?_
  intro task _ starts
  unfold Starts at starts ⊢
  rwa [tasks, ready] at starts

theorem Spared.without (spared : run.Spared) (task : Nat) : (run.without task).Spared := by
  refine spared.kept (Nat.le_refl _) (fun _ => id) ?_
  rintro other _ (queued | ⟨activity, held, launched⟩)
  · exact Or.inl queued
  · exact Or.inr ⟨activity, (Table.of_get?_erase held).2, launched⟩

theorem Spared.pop (spared : run.Spared) {job : Job} {rest : List Job}
    (isReady : run.ready = job :: rest) : ({ run with ready := rest } : Run).Spared := by
  have kept : ∀ other, other ∈ rest → other ∈ run.ready :=
    fun other member => isReady ▸ List.mem_cons_of_mem job member
  exact spared.kept (Nat.le_refl _) (fun _ => Or.imp_left (kept _))
    fun _ _ => Or.imp_left fun ⟨language, server, queued⟩ => ⟨language, server, kept _ queued⟩

theorem Spared.enqueue (spared : run.Spared) {jobs : List Job}
    (unstarted : ∀ task language server, .launch task language server ∉ jobs)
    (uncancelled : ∀ task, .resume task .cancelled ∉ jobs) : (run.enqueue jobs).Spared := by
  refine spared.kept (Nat.le_refl _) ?_ ?_
  · rintro task (queued | member)
    · exact Or.inl ((List.mem_append.mp queued).resolve_right (uncancelled task))
    · exact Or.inr member
  · rintro task _ (⟨language, server, queued⟩ | held)
    · exact Or.inl ⟨language, server,
        (List.mem_append.mp queued).resolve_right (unstarted task language server)⟩
    · exact Or.inr held

theorem Spared.queueLaunch (spared : run.Spared) (language : String) (server : Nat) :
    (run.queueLaunch language server).Spared := by
  refine spared.kept (Nat.le_succ _) ?_ ?_
  · rintro task (queued | member)
    · exact Or.inl (by simpa [Run.queueLaunch, Run.enqueue] using queued)
    · exact Or.inr member
  · rintro task below (⟨wanted, wantedServer, queued⟩ | held)
    · left
      refine ⟨wanted, wantedServer, (List.mem_append.mp queued).resolve_right fun last => ?_⟩
      cases List.mem_singleton.mp last
      exact Nat.lt_irrefl _ below
    · exact Or.inr held

theorem Spared.block (spared : (run.without task).Spared) {activity : Activity}
    (apart : activity.launched? = none ∨ ¬ run.Exposed task) :
    (run.block task activity).Spared := by
  intro other isExposed
  obtain ⟨below, unstarted⟩ := spared other isExposed
  refine ⟨below, ?_⟩
  rintro (queued | ⟨held, isHeld, launched⟩)
  · exact unstarted (Or.inl queued)
  · rcases run.held_of_block isHeld with ⟨rfl, rfl⟩ | ⟨_, old⟩
    · rcases apart with unlaunched | unexposed
      · exact launched unlaunched
      · exact unexposed isExposed
    · exact unstarted (Or.inr ⟨held, old, launched⟩)

theorem Spared.split (spared : (run.without task).Spared) (atWork : run.InHand task)
    (purpose : Purpose) (count : Nat) {job : Nat → Nat → Job}
    (joins : ∀ index, index < count →
      (job (run.nextTask + index) index).Joins task (run.nextTask + index)) :
    (run.split task purpose count job).Spared := by
  have jobs : ∀ other ∈ (List.range count).map fun index => job (run.nextTask + index) index,
      ∃ member, other.Joins task member := by
    intro other member
    obtain ⟨index, within, rfl⟩ := List.mem_map.mp member
    exact ⟨_, joins index (List.mem_range.mp within)⟩
  have kept : ∀ other, (run.split task purpose count job).Starts other →
      (run.without task).Starts other := by
    rintro other (⟨language, server, queued⟩ | ⟨activity, held, launched⟩)
    · rcases List.mem_append.mp queued with old | new
      · exact Or.inl ⟨language, server, old⟩
      · obtain ⟨_, joined⟩ := jobs _ new
        exact joined.elim
    · rcases run.held_of_block held with ⟨rfl, rfl⟩ | ⟨_, old⟩
      · contradiction
      · exact Or.inr ⟨activity, old, launched⟩
  have old : ∀ other, (run.without task).Exposed other →
      other < run.nextTask + count ∧ ¬ (run.split task purpose count job).Starts other := by
    intro other isExposed
    obtain ⟨below, unstarted⟩ := spared other isExposed
    exact ⟨Nat.lt_of_lt_of_le below (Nat.le_add_right _ _), fun starts => unstarted (kept _ starts)⟩
  rintro other (queued | ⟨parent, group, found, member⟩)
  · refine old other (Or.inl ((List.mem_append.mp queued).resolve_right fun new => ?_))
    obtain ⟨_, joined⟩ := jobs _ new
    exact joined.elim
  · rcases Table.of_get?_put found with ⟨rfl, rfl⟩ | ⟨_, known⟩
    · obtain ⟨index, within, rfl⟩ := List.mem_map.mp member
      refine ⟨Nat.add_lt_add_left (List.mem_range.mp within) _, fun starts => ?_⟩
      have below := atWork.below _ (List.mem_cons_of_mem _ (kept _ starts).mem_numbers)
      exact absurd below (by omega)
    · exact old other (Or.inr ⟨parent, group, known, member⟩)

/-! ### Tasks that wait for a start -/

/-- The task waits for the start of a language, and that has not ended. -/
def AwaitsStart (run : Run) (task : Nat) (language : String) : Prop :=
  ∃ startUp, run.startUps.get? language = some startUp ∧ startUp.settled = none ∧
    task ∈ startUp.waiters

/-- The tasks that are still to be told of the end of a start. -/
def expecting (run : Run) : List Nat :=
  run.startUps.gather (fun _ startUp => startUp.audience) ++ run.ready.filterMap Job.told?

/-- The task is about to learn how a start has ended. -/
def Told (run : Run) (task : Nat) (outcome : Except Fault Bool) : Prop :=
  .relay task outcome ∈ run.ready ∨ .resume task (.started outcome) ∈ run.ready

/-- Whoever waits for a start is on its list, or is told how it has ended, or is cancelled. -/
def Served (run : Run) (task : Nat) (language : String) : Prop :=
  run.AwaitsStart task language ∨ (∃ outcome, run.Told task outcome) ∨
    .resume task .cancelled ∈ run.ready

/-- Whoever waits for a start is served, and is told once. -/
structure Attended (run : Run) : Prop where
  distinct : run.startUps.Distinct
  once : run.expecting.Nodup
  known : ∀ task ∈ run.expecting, task < run.nextTask ∧ task ∉ run.ready.filterMap Job.begins?
  listening : ∀ task language activity, run.AwaitsStart task language →
    run.tasks.get? task = some activity → activity.awaited? = some language
  heard : ∀ task activity language, run.tasks.get? task = some activity →
    activity.awaited? = some language → run.Served task language
  told : ∀ task outcome activity, run.Told task outcome → run.tasks.get? task = some activity →
    ∃ language server, activity.awaited? = some language ∧
      run.bridge.current.get? language = some server ∧
      (run.bridge.link server).server.Ended run.bridge.root outcome

theorem Told.mem_told {outcome : Except Fault Bool} (told : run.Told task outcome) :
    task ∈ run.ready.filterMap Job.told? := by
  rcases told with relayed | resumed
  · exact List.mem_filterMap.mpr ⟨_, relayed, rfl⟩
  · exact List.mem_filterMap.mpr ⟨_, resumed, rfl⟩

theorem Served.kept (served : run.Served task language)
    (awaits : run.AwaitsStart task language → after.AwaitsStart task language)
    (stays : ∀ job ∈ run.ready, job ∈ after.ready) : after.Served task language := by
  rcases served with waits | ⟨outcome, told⟩ | cancelled
  · exact Or.inl (awaits waits)
  · exact Or.inr (Or.inl ⟨outcome, told.imp (stays _) (stays _)⟩)
  · exact Or.inr (Or.inr (stays _ cancelled))

theorem mem_audience (distinct : run.startUps.Distinct) :
    task ∈ run.startUps.gather (fun _ startUp => startUp.audience) ↔
      ∃ language, run.AwaitsStart task language := by
  rw [Table.mem_gather _ distinct]
  constructor
  · rintro ⟨language, startUp, found, member⟩
    unfold StartUp.audience at member
    split at member
    · rename_i unsettled
      exact ⟨language, startUp, found, Option.isNone_iff_eq_none.mp unsettled, member⟩
    · contradiction
  · rintro ⟨language, startUp, found, unsettled, member⟩
    exact ⟨language, startUp, found, by simpa [StartUp.audience, unsettled] using member⟩

/-! ### Who is still to be told -/

theorem expecting_pop {job : Job} {rest : List Job} (isReady : run.ready = job :: rest) :
    (({ run with ready := rest } : Run).expecting).Sublist run.expecting := by
  rw [Run.expecting, Run.expecting, isReady]
  exact ((List.sublist_cons_self job rest).filterMap _).append_left _

section

variable {startUp : StartUp} (found : run.startUps.get? language = some startUp)
  (unsettled : startUp.settled = none)
include found unsettled

theorem expecting_await (distinct : run.startUps.Distinct) (task : Nat) (activity : Activity) :
    (run.await task language activity).expecting.Perm (task :: run.expecting) := by
  have split := Table.gather_split (fun _ startUp => StartUp.audience startUp) distinct found
  have changed := Table.gather_adjust (fun _ startUp => StartUp.audience startUp) distinct found
    fun startUp => { startUp with waiters := startUp.waiters ++ [task] }
  have longer : StartUp.audience { startUp with waiters := startUp.waiters ++ [task] } =
      startUp.audience ++ [task] := by
    simp [StartUp.audience, unsettled]
  rw [longer] at changed
  have joined : ((run.await task language activity).startUps.gather
      fun _ startUp => startUp.audience).Perm
        (task :: run.startUps.gather fun _ startUp => startUp.audience) := by
    refine changed.trans (.trans ?_ (split.symm.cons task))
    rw [List.append_assoc]
    exact List.perm_middle
  exact joined.append_right _

theorem awaitsStart_await {activity : Activity} {other : Nat} {wanted : String} :
    (run.await task language activity).AwaitsStart other wanted ↔
      run.AwaitsStart other wanted ∨ (other = task ∧ wanted = language) := by
  by_cases same : wanted = language
  · subst same
    simp [AwaitsStart, Run.await, Table.get?_adjust, found, unsettled]
  · simp [AwaitsStart, Run.await, Table.get?_adjust, same]

omit unsettled in
theorem ready_settle (task : Nat) (outcome : Except Fault Bool) :
    (run.settle task language outcome).ready = run.ready ++ .forget language ::
      startUp.waiters.map fun waiter => .relay waiter outcome := by
  simp [Run.settle, Run.enqueue, found]

/-- Those who wait for a start that ends are told of it, and nobody else is. -/
theorem expecting_settle (distinct : run.startUps.Distinct) (task : Nat)
    (outcome : Except Fault Bool) :
    (run.settle task language outcome).expecting.Perm run.expecting := by
  have split := Table.gather_split (fun _ startUp => StartUp.audience startUp) distinct found
  have changed := Table.gather_adjust (fun _ startUp => StartUp.audience startUp) distinct found
    fun startUp => { startUp with settled := some outcome }
  have before : startUp.audience = startUp.waiters := by
    simp [StartUp.audience, unsettled]
  have after : StartUp.audience { startUp with settled := some outcome } = [] := rfl
  rw [before] at split
  rw [after, List.nil_append] at changed
  have told : (run.settle task language outcome).ready.filterMap Job.told? =
      run.ready.filterMap Job.told? ++ startUp.waiters := by
    rw [ready_settle found, List.filterMap_append, List.filterMap_cons_none rfl, List.filterMap_map]
    exact congrArg _ List.filterMap_some
  rw [Run.expecting, told]
  refine (changed.append_right _).trans ?_
  refine .trans ?_ (split.symm.append_right _)
  rw [← List.append_assoc]
  exact List.perm_append_comm.trans (.of_eq (List.append_assoc _ _ _).symm)

omit unsettled in
theorem Told.of_settle {other : Nat} {outcome result : Except Fault Bool}
    (told : (run.settle task language outcome).Told other result) :
    run.Told other result ∨ (other ∈ startUp.waiters ∧ result = outcome) := by
  rw [Told, ready_settle found] at told
  rcases told with relayed | resumed
  · rcases List.mem_append.mp relayed with old | new
    · exact Or.inl (Or.inl old)
    · simp only [List.mem_cons, List.mem_map, reduceCtorEq, false_or, Job.relay.injEq] at new
      obtain ⟨waiter, member, rfl, rfl⟩ := new
      exact Or.inr ⟨member, rfl⟩
  · rcases List.mem_append.mp resumed with old | new
    · exact Or.inl (Or.inr old)
    · simp at new

end

namespace Attended

section

variable (attended : run.Attended)
include attended

/-- There is less to wait for and to be told, but nobody misses anything. -/
theorem carried (bridge : run.bridge.KeepsEnds after.bridge)
    (tasks : ∀ task activity, after.tasks.get? task = some activity →
      run.tasks.get? task = some activity) (nextTask : run.nextTask ≤ after.nextTask)
    (distinct : after.startUps.Distinct) (once : after.expecting.Nodup)
    (expected : ∀ task ∈ after.expecting, task ∈ run.expecting)
    (begins : ∀ task ∈ after.ready.filterMap Job.begins?, task < run.nextTask →
      task ∈ run.ready.filterMap Job.begins?)
    (awaits : ∀ task language, after.AwaitsStart task language → run.AwaitsStart task language)
    (tells : ∀ task outcome, after.Told task outcome → run.Told task outcome)
    (served : ∀ task activity language, run.tasks.get? task = some activity →
      activity.awaited? = some language → run.Served task language → after.Served task language) :
    after.Attended := by
  refine ⟨distinct, once, ?_, ?_, ?_, ?_⟩
  · intro task member
    obtain ⟨below, begun⟩ := attended.known task (expected task member)
    exact ⟨Nat.lt_of_lt_of_le below nextTask, fun begin => begun (begins task begin below)⟩
  · exact fun task language activity waits held =>
      attended.listening task language activity (awaits _ _ waits) (tasks task activity held)
  · intro task activity language held awaited
    have isHeld := tasks task activity held
    exact served task activity language isHeld awaited
      (attended.heard task activity language isHeld awaited)
  · intro task outcome activity told held
    obtain ⟨language, server, awaited, found, ended⟩ :=
      attended.told task outcome activity (tells task outcome told) (tasks task activity held)
    exact ⟨language, server, awaited, bridge.current _ _ found, bridge.ended _ _ _ found ended⟩

theorem extend {jobs : List Job} (bridge : run.bridge.KeepsEnds after.bridge)
    (startUps : after.startUps = run.startUps)
    (tasks : ∀ task activity, after.tasks.get? task = some activity →
      run.tasks.get? task = some activity) (ready : after.ready = run.ready ++ jobs)
    (nextTask : run.nextTask ≤ after.nextTask) (untold : ∀ job ∈ jobs, job.told? = none)
    (fresh : ∀ job ∈ jobs, ∀ task, job.begins? = some task → run.nextTask ≤ task) :
    after.Attended := by
  have awaits : ∀ task language, after.AwaitsStart task language ↔ run.AwaitsStart task language := by
    simp [AwaitsStart, startUps]
  have expecting : after.expecting = run.expecting := by
    rw [Run.expecting, startUps, ready, List.filterMap_append,
      List.filterMap_eq_nil_iff.mpr untold, List.append_nil, Run.expecting]
  refine attended.carried bridge tasks nextTask (startUps ▸ attended.distinct)
    (expecting ▸ attended.once) (expecting ▸ fun _ => id) ?_ (fun _ _ => (awaits _ _).mp) ?_ ?_
  · intro task begin below
    rw [ready, List.filterMap_append] at begin
    refine (List.mem_append.mp begin).resolve_right fun new => ?_
    obtain ⟨job, isJob, begins⟩ := List.mem_filterMap.mp new
    exact Nat.not_lt.mpr (fresh job isJob task begins) below
  · intro task outcome told
    rw [Told, ready] at told
    refine told.imp (fun relayed => ?_) (fun resumed => ?_)
    · exact (List.mem_append.mp relayed).resolve_right fun new => by cases untold _ new
    · exact (List.mem_append.mp resumed).resolve_right fun new => by cases untold _ new
  · exact fun _ _ _ _ _ served => served.kept (awaits _ _).mpr
      fun _ member => ready ▸ List.mem_append_left jobs member

theorem kept (bridge : run.bridge.KeepsEnds after.bridge) (startUps : after.startUps = run.startUps)
    (tasks : after.tasks = run.tasks) (ready : after.ready = run.ready)
    (nextTask : run.nextTask ≤ after.nextTask) :
    after.Attended :=
  attended.extend bridge startUps (fun _ _ held => tasks ▸ held)
    (ready.trans (List.append_nil _).symm) nextTask (by simp) (by simp)

theorem without (task : Nat) : (run.without task).Attended :=
  attended.extend (.refl _) rfl
    (fun _ _ held => (Table.of_get?_erase held).2) (List.append_nil _).symm (Nat.le_refl _) (by simp)
    (by simp)

theorem enqueue {jobs : List Job} (untold : ∀ job ∈ jobs, job.told? = none)
    (unbegun : ∀ job ∈ jobs, job.begins? = none) :
    (run.enqueue jobs).Attended := by
  refine attended.extend (.refl _) rfl (fun _ _ => id) rfl (Nat.le_refl _) untold ?_
  intro job member task begins
  rw [unbegun job member] at begins
  contradiction

/-- Nobody who is not told is to be told; a task that does not wait for a start is not. -/
theorem unexpected {activity : Activity} (held : run.tasks.get? task = some activity)
    (awaited : activity.awaited? = none) :
    task ∉ run.expecting := by
  intro member
  rcases List.mem_append.mp member with waits | told
  · obtain ⟨language, waits⟩ := (mem_audience attended.distinct).mp waits
    have isAwaited := attended.listening task language activity waits held
    rw [awaited] at isAwaited
    contradiction
  · obtain ⟨job, queued, isTold⟩ := List.mem_filterMap.mp told
    have tells : ∃ outcome, run.Told task outcome := by
      cases job with
      | relay other outcome =>
        cases isTold
        exact ⟨outcome, Or.inl queued⟩
      | resume other signal =>
        cases signal with
        | started outcome =>
          cases isTold
          exact ⟨outcome, Or.inr queued⟩
        | _ => contradiction
      | _ => contradiction
    obtain ⟨outcome, tells⟩ := tells
    obtain ⟨language, _, isAwaited, _⟩ := attended.told task outcome activity tells held
    rw [awaited] at isAwaited
    contradiction

theorem pop {job : Job} {rest : List Job} (isReady : run.ready = job :: rest)
    (missed : ∀ task activity language, run.tasks.get? task = some activity →
      activity.awaited? = some language → job.told? ≠ some task ∧ job ≠ .resume task .cancelled) :
    ({ run with ready := rest } : Run).Attended := by
  have remains : ∀ other, other ∈ run.ready → other = job ∨ other ∈ rest :=
    fun other member => List.mem_cons.mp (isReady ▸ member)
  have stays : ∀ other, other ∈ rest → other ∈ run.ready :=
    fun other member => isReady ▸ List.mem_cons_of_mem job member
  have fewer := expecting_pop isReady
  refine attended.carried (.refl _) (fun _ _ => id) (Nat.le_refl _) attended.distinct
    (attended.once.sublist fewer) (fun _ member => fewer.subset member) ?_ (fun _ _ => id)
    (fun _ _ told => told.imp (stays _) (stays _)) ?_
  · intro task begin _
    rw [isReady]
    exact ((List.sublist_cons_self job rest).filterMap _).subset begin
  · intro task activity language held awaited served
    obtain ⟨untold, uncancelled⟩ := missed task activity language held awaited
    rcases served with waits | ⟨outcome, relayed | resumed⟩ | cancelled
    · exact Or.inl waits
    · have left := (remains _ relayed).resolve_left fun same => untold (same ▸ rfl)
      exact Or.inr (Or.inl ⟨outcome, Or.inl left⟩)
    · have left := (remains _ resumed).resolve_left fun same => untold (same ▸ rfl)
      exact Or.inr (Or.inl ⟨outcome, Or.inr left⟩)
    · exact Or.inr (Or.inr ((remains _ cancelled).resolve_left fun same => uncancelled same.symm))

theorem relay {outcome : Except Fault Bool} {rest : List Job}
    (isReady : run.ready = .relay task outcome :: rest) :
    (({ run with ready := rest } : Run).enqueue [.resume task (.started outcome)]).Attended := by
  have perm : (({ run with ready := rest } : Run).enqueue
      [.resume task (.started outcome)]).expecting.Perm run.expecting := by
    simp only [Run.expecting, Run.enqueue, isReady, List.filterMap_append]
    exact List.Perm.append_left _ List.perm_append_comm
  have begins : (({ run with ready := rest } : Run).enqueue
      [.resume task (.started outcome)]).ready.filterMap Job.begins? =
        run.ready.filterMap Job.begins? := by
    simp only [Run.enqueue, isReady, List.filterMap_append]
    exact List.append_nil _
  have tells : ∀ other result, (({ run with ready := rest } : Run).enqueue
      [.resume task (.started outcome)]).Told other result ↔ run.Told other result := by
    intro other result
    simp only [Told, Run.enqueue, isReady, List.mem_append, List.mem_cons, List.not_mem_nil, or_false,
      Job.relay.injEq, Job.resume.injEq, Signal.started.injEq, reduceCtorEq, false_or]
    exact ⟨fun told => by grind, fun told => by grind⟩
  refine attended.carried (.refl _) (fun _ _ => id) (Nat.le_refl _) attended.distinct
    (perm.nodup_iff.mpr attended.once) (fun _ => perm.mem_iff.mp) (fun _ begin _ => begins ▸ begin)
    (fun _ _ => id) (fun other result => (tells other result).mp) ?_
  rintro other activity language - - (waits | ⟨result, told⟩ | cancelled)
  · exact Or.inl waits
  · exact Or.inr (Or.inl ⟨result, (tells other result).mpr told⟩)
  · refine Or.inr (Or.inr (List.mem_append_left _ ?_))
    simpa [isReady] using cancelled

end

theorem block (attended : (run.without task).Attended) (unexpected : task ∉ run.expecting)
    {activity : Activity} (awaited : activity.awaited? = none) :
    (run.block task activity).Attended := by
  refine ⟨attended.distinct, attended.once, attended.known, ?_, ?_, ?_⟩
  · intro other language held waits isHeld
    rcases run.held_of_block isHeld with ⟨rfl, rfl⟩ | ⟨_, old⟩
    · have member := (mem_audience attended.distinct).mpr ⟨language, waits⟩
      exact absurd (List.mem_append_left _ member) unexpected
    · exact attended.listening other language held waits old
  · intro other held language isHeld isAwaited
    rcases run.held_of_block isHeld with ⟨rfl, rfl⟩ | ⟨_, old⟩
    · cases awaited.symm.trans isAwaited
    · exact attended.heard other held language old isAwaited
  · intro other outcome held told isHeld
    rcases run.held_of_block isHeld with ⟨rfl, rfl⟩ | ⟨_, old⟩
    · exact absurd (List.mem_append_right _ told.mem_told) unexpected
    · exact attended.told other outcome held told old

theorem await (attended : (run.without task).Attended) (unexpected : task ∉ run.expecting)
    (below : task < run.nextTask) (begun : task ∉ run.ready.filterMap Job.begins?)
    {activity : Activity} (awaited : activity.awaited? = some language) {startUp : StartUp}
    (found : run.startUps.get? language = some startUp) (unsettled : startUp.settled = none) :
    (run.await task language activity).Attended := by
  have perm := expecting_await found unsettled attended.distinct task activity
  have awaits (other : Nat) (wanted : String) :
      (run.await task language activity).AwaitsStart other wanted ↔
        run.AwaitsStart other wanted ∨ (other = task ∧ wanted = language) :=
    awaitsStart_await found unsettled
  refine ⟨attended.distinct.adjust _ _,
    perm.nodup_iff.mpr (List.nodup_cons.mpr ⟨unexpected, attended.once⟩), ?_, ?_, ?_, ?_⟩
  · intro other member
    rcases List.mem_cons.mp (perm.mem_iff.mp member) with rfl | old
    · exact ⟨below, begun⟩
    · exact attended.known other old
  · intro other wanted held waits isHeld
    rcases run.held_of_block isHeld with ⟨rfl, rfl⟩ | ⟨different, isHeld⟩
    · rcases (awaits _ wanted).mp waits with old | ⟨_, rfl⟩
      · have member := (mem_audience attended.distinct).mpr ⟨wanted, old⟩
        exact absurd (List.mem_append_left _ member) unexpected
      · exact awaited
    · have old := ((awaits other wanted).mp waits).resolve_right fun new => different new.1
      exact attended.listening other wanted held old isHeld
  · intro other held wanted isHeld isAwaited
    rcases run.held_of_block isHeld with ⟨rfl, rfl⟩ | ⟨_, isHeld⟩
    · cases awaited.symm.trans isAwaited
      exact Or.inl ((awaits _ _).mpr (Or.inr ⟨rfl, rfl⟩))
    · exact (attended.heard other held wanted isHeld isAwaited).kept
        (fun waits => (awaits other wanted).mpr (Or.inl waits)) fun _ => id
  · intro other outcome held told isHeld
    rcases run.held_of_block isHeld with ⟨rfl, rfl⟩ | ⟨_, isHeld⟩
    · have isTold : run.Told _ outcome := told
      exact absurd (List.mem_append_right _ isTold.mem_told) unexpected
    · exact attended.told other outcome held told isHeld

theorem queueLaunch (attended : run.Attended) (first : run.startUps.get? language = none)
    (server : Nat) : (run.queueLaunch language server).Attended := by
  have put : ({ run with startUps := run.startUps.put language { server := server } } :
      Run).Attended := by
    have expecting : ({ run with startUps := run.startUps.put language { server := server } } :
        Run).expecting = run.expecting := by
      simp only [Run.expecting, Table.gather_put _ first]
      simp [StartUp.audience]
    have awaits : ∀ task wanted, ({ run with
        startUps := run.startUps.put language { server := server } } : Run).AwaitsStart task wanted ↔
          run.AwaitsStart task wanted := by
      intro task wanted
      simp only [AwaitsStart, Table.get?_put]
      split
      · rename_i same
        simp [same, first]
      · rfl
    exact attended.carried (.refl _) (fun _ _ => id) (Nat.le_refl _) (attended.distinct.put _ _)
      (expecting ▸ attended.once) (expecting ▸ fun _ => id) (fun _ begin _ => begin)
      (fun task wanted => (awaits task wanted).mp) (fun _ _ => id)
      fun task _ wanted _ _ served => served.kept (awaits task wanted).mpr fun _ => id
  refine put.extend (.refl _) rfl (fun _ _ => id) rfl (Nat.le_succ _) ?_ ?_
  · simp [Job.told?]
  · simp [Job.begins?]

theorem forget (attended : run.Attended) {startUp : StartUp}
    (found : run.startUps.get? language = some startUp) (hasEnded : startUp.settled ≠ none) :
    ({ run with startUps := run.startUps.erase language } : Run).Attended := by
  have perm : run.expecting.Perm
      ({ run with startUps := run.startUps.erase language } : Run).expecting := by
    have split := Table.gather_split (fun _ startUp => StartUp.audience startUp)
      attended.distinct found
    have empty : startUp.audience = [] := by
      simp [StartUp.audience, hasEnded]
    rw [empty, List.nil_append] at split
    exact split.append_right _
  have awaits : ∀ task wanted,
      ({ run with startUps := run.startUps.erase language } : Run).AwaitsStart task wanted ↔
        run.AwaitsStart task wanted := by
    intro task wanted
    simp only [AwaitsStart, Table.get?_erase]
    split
    · rename_i same
      subst same
      rw [found]
      constructor
      · rintro ⟨_, absent, _⟩
        contradiction
      · rintro ⟨_, same, unsettled, _⟩
        cases same
        exact absurd unsettled hasEnded
    · rfl
  exact attended.carried (.refl _) (fun _ _ => id) (Nat.le_refl _) (attended.distinct.erase _)
    (perm.nodup_iff.mp attended.once) (fun _ => perm.mem_iff.mpr) (fun _ begin _ => begin)
    (fun task wanted => (awaits task wanted).mp) (fun _ _ => id)
    fun task _ wanted _ _ served => served.kept (awaits task wanted).mpr fun _ => id

theorem settle (attended : (run.without task).Attended) {startUp : StartUp}
    (found : run.startUps.get? language = some startUp) (unsettled : startUp.settled = none)
    (known : run.bridge.current.get? language = some server) {outcome : Except Fault Bool}
    (ended : (run.bridge.link server).server.Ended run.bridge.root outcome) :
    (run.settle task language outcome).Attended := by
  have ready := ready_settle found task outcome
  have perm := expecting_settle found unsettled attended.distinct task outcome
  have stays : ∀ job, job ∈ run.ready → job ∈ (run.settle task language outcome).ready :=
    fun job member => ready ▸ List.mem_append_left _ member
  have others : ∀ other wanted, wanted ≠ language →
      ((run.settle task language outcome).AwaitsStart other wanted ↔ run.AwaitsStart other wanted) := by
    intro other wanted different
    simp [AwaitsStart, Run.settle, Run.enqueue, Table.get?_adjust, different]
  have isFound : (run.settle task language outcome).startUps.get? language =
      some { startUp with settled := some outcome } := by
    simp [Run.settle, Run.enqueue, Table.get?_adjust, found]
  refine ⟨attended.distinct.adjust _ _, perm.nodup_iff.mpr attended.once, ?_, ?_, ?_, ?_⟩
  · intro other member
    have begins : (run.settle task language outcome).ready.filterMap Job.begins? =
        run.ready.filterMap Job.begins? := by
      simp [ready, Job.begins?]
    rw [begins]
    exact attended.known other (perm.mem_iff.mp member)
  · intro other wanted held waits isHeld
    by_cases same : wanted = language
    · obtain ⟨later, foundLater, stillUnsettled, _⟩ := waits
      rw [same, isFound] at foundLater
      cases foundLater
      contradiction
    · exact attended.listening other wanted held ((others other wanted same).mp waits) isHeld
  · intro other held wanted isHeld isAwaited
    have served := attended.heard other held wanted isHeld isAwaited
    by_cases same : wanted = language
    · subst same
      rcases served with ⟨earlier, foundEarlier, _, member⟩ | ⟨result, told⟩ | cancelled
      · cases found.symm.trans foundEarlier
        refine Or.inr (Or.inl ⟨outcome, Or.inl ?_⟩)
        rw [ready]
        exact List.mem_append_right _ (List.mem_cons_of_mem _ (List.mem_map.mpr ⟨other, member, rfl⟩))
      · exact Or.inr (Or.inl ⟨result, told.imp (stays _) (stays _)⟩)
      · exact Or.inr (Or.inr (stays _ cancelled))
    · exact served.kept (others other wanted same).mpr stays
  · intro other result held told isHeld
    rcases told.of_settle found with old | ⟨member, rfl⟩
    · exact attended.told other result held old isHeld
    · have waits : (run.without task).AwaitsStart other language :=
        ⟨startUp, found, unsettled, member⟩
      exact ⟨language, server, attended.listening other language held waits isHeld, known, ended⟩

theorem interrupt (attended : run.Attended) (task : Nat) : (run.interrupt task).Attended := by
  have lists : (run.interrupt task).startUps.gather (fun _ startUp => startUp.audience) =
      (run.startUps.gather fun _ startUp => startUp.audience).filter (· ≠ task) := by
    have fewer : ∀ startUp : StartUp, StartUp.audience
        { startUp with waiters := startUp.waiters.filter (· ≠ task) } =
          startUp.audience.filter (· ≠ task) := by
      intro startUp
      unfold StartUp.audience
      split <;> simp_all
    have viewed := Table.gather_mapValues (fun _ startUp => StartUp.audience startUp) run.startUps
      fun startUp => { startUp with waiters := startUp.waiters.filter (· ≠ task) }
    refine viewed.trans ?_
    simp only [fewer, Table.gather, List.filter_flatMap]
  have told : (run.interrupt task).ready.filterMap Job.told? = run.ready.filterMap Job.told? := by
    simp [Run.interrupt, Run.enqueue, Job.told?]
  have fewer : (run.interrupt task).expecting.Sublist run.expecting := by
    rw [Run.expecting, lists, told]
    exact List.filter_sublist.append_right _
  have awaits : ∀ other wanted, (run.interrupt task).AwaitsStart other wanted ↔
      run.AwaitsStart other wanted ∧ other ≠ task := by
    intro other wanted
    simp only [AwaitsStart, Run.interrupt, Run.enqueue, Table.get?_mapValues, Option.map_eq_some_iff]
    constructor
    · rintro ⟨later, ⟨startUp, found, rfl⟩, unsettled, member⟩
      obtain ⟨member, different⟩ := List.mem_filter.mp member
      exact ⟨⟨startUp, found, unsettled, member⟩, by simpa using different⟩
    · rintro ⟨⟨startUp, found, unsettled, member⟩, different⟩
      exact ⟨_, ⟨startUp, found, rfl⟩, unsettled, List.mem_filter.mpr ⟨member, by simpa using different⟩⟩
  have stays : ∀ job, job ∈ run.ready → job ∈ (run.interrupt task).ready :=
    fun _ member => List.mem_append_left _ member
  have tells : ∀ other outcome, (run.interrupt task).Told other outcome → run.Told other outcome := by
    intro other outcome isTold
    simpa [Told, Run.interrupt, Run.enqueue] using isTold
  have distinct : (run.interrupt task).startUps.Distinct := by
    unfold Table.Distinct
    rw [show (run.interrupt task).startUps.keys = run.startUps.keys from Table.keys_mapValues _ _]
    exact attended.distinct
  refine attended.carried (.refl _) (fun _ _ => id) (Nat.le_refl _) distinct
    (attended.once.sublist fewer) (fun _ member => fewer.subset member) ?_
    (fun other wanted waits => ((awaits other wanted).mp waits).1) tells ?_
  · intro other begin _
    simpa [Run.interrupt, Run.enqueue, Job.begins?] using begin
  · intro other held wanted isHeld isAwaited served
    by_cases same : other = task
    · subst same
      exact Or.inr (Or.inr (List.mem_append_right _ (List.mem_singleton_self _)))
    · exact served.kept (fun waits => (awaits other wanted).mpr ⟨waits, same⟩) stays

end Attended

end Run

end LanguageBridge
