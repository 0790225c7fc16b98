import LanguageBridge.Proofs.Bridge.Issuing
import Mathlib.Data.List.Basic

namespace LanguageBridge

/-! What blocked tasks and queued jobs carry with them, and that no two of them go by one number. While
a task takes its turn, it is left out and has its share in hand. -/

/-! ### Entries of tables -/

namespace Table

variable {κ ν : Type} [DecidableEq κ] {table : Table κ ν} {key : κ} {value : ν}

theorem erase_of_absent (absent : table.get? key = none) : table.erase key = table := by
  obtain ⟨entries⟩ := table
  rw [get?_eq_none_iff] at absent
  simp only [erase, mk.injEq, List.filter_eq_self, decide_eq_true_eq]
  intro entry member same
  exact absent (List.mem_map.mpr ⟨entry, member, same⟩)

theorem erase_put (table : Table κ ν) (key : κ) (value : ν) :
    (table.put key value).erase key = table.erase key := by
  unfold put
  split
  · simp only [erase, List.filter_map]
    congr 1
    induction table.entries with
    | nil => rfl
    | cons entry rest ih => by_cases same : entry.1 = key <;> simp_all [Function.comp_def]
  · simp [erase]

theorem Distinct.entries_perm (distinct : table.Distinct) (found : table.get? key = some value) :
    table.entries.Perm ((key, value) :: (table.erase key).entries) := by
  obtain ⟨entries⟩ := table
  induction entries with
  | nil => contradiction
  | cons entry rest ih =>
    obtain ⟨fresh, restDistinct⟩ := List.nodup_cons.mp distinct
    rw [get?_cons] at found
    simp only [Table.erase] at ih ⊢
    by_cases here : entry.1 = key
    · rw [if_pos here, Option.some.injEq] at found
      have others : (⟨rest⟩ : Table κ ν).erase key = ⟨rest⟩ :=
        erase_of_absent (get?_eq_none_iff.mpr (here ▸ fresh))
      simp only [Table.erase, mk.injEq] at others
      rw [List.filter_cons_of_neg (by simpa using here), others, ← here, ← found]
    · rw [if_neg here] at found
      rw [List.filter_cons_of_pos (by simpa using here)]
      exact ((ih restDistinct found).cons entry).trans (.swap _ _ _)

theorem Distinct.put_perm (distinct : table.Distinct) (key : κ) (value : ν) :
    (table.put key value).entries.Perm ((key, value) :: (table.erase key).entries) := by
  have found : (table.put key value).get? key = some value := by rw [get?_put, if_pos rfl]
  have held := (distinct.put key value).entries_perm found
  rw [erase_put] at held
  exact held

end Table

namespace Run

/-- What blocked tasks and queued jobs carry with them. -/
def carried {β : Type} (byTask : Nat → Activity → Option β) (byJob : Job → Option β) (run : Run) :
    List β :=
  run.tasks.entries.filterMap (fun entry => byTask entry.1 entry.2) ++ run.ready.filterMap byJob

/-- The run without a task that takes its turn. -/
def without (run : Run) (task : Nat) : Run :=
  { run with tasks := run.tasks.erase task }

theorem held_of_block (run : Run) {task other : Nat} {activity held : Activity}
    (isHeld : (run.block task activity).tasks.get? other = some held) :
    (other = task ∧ held = activity) ∨
      (other ≠ task ∧ (run.without task).tasks.get? other = some held) := by
  refine (Table.of_get?_put isHeld).imp_right fun old => ⟨old.1, ?_⟩
  rw [without, Table.get?_erase, if_neg old.1]
  exact old.2

section Carried

variable {β : Type} (byTask : Nat → Activity → Option β) (byJob : Job → Option β) {run : Run}
  {task : Nat} {activity : Activity}

theorem carried_held (distinct : run.tasks.Distinct) (held : run.tasks.get? task = some activity) :
    (run.carried byTask byJob).Perm
      ((byTask task activity).toList ++ (run.without task).carried byTask byJob) := by
  have entries := (distinct.entries_perm held).filterMap fun entry => byTask entry.1 entry.2
  rw [List.filterMap_cons] at entries
  refine (entries.append_right _).trans (.of_eq ?_)
  cases byTask task activity <;> simp [carried, without]

theorem carried_block (distinct : run.tasks.Distinct) (task : Nat) (activity : Activity) :
    ((run.block task activity).carried byTask byJob).Perm
      ((byTask task activity).toList ++ (run.without task).carried byTask byJob) := by
  have entries := (distinct.put_perm task activity).filterMap fun entry => byTask entry.1 entry.2
  rw [List.filterMap_cons] at entries
  refine (entries.append_right _).trans (.of_eq ?_)
  cases byTask task activity <;> simp [carried, without, block]

theorem carried_enqueue (run : Run) (jobs : List Job) :
    (run.enqueue jobs).carried byTask byJob = run.carried byTask byJob ++ jobs.filterMap byJob := by
  simp [carried, enqueue]

theorem carried_pop {job : Job} {rest : List Job} (isReady : run.ready = job :: rest) :
    (run.carried byTask byJob).Perm
      ((byJob job).toList ++ ({ run with ready := rest } : Run).carried byTask byJob) := by
  have split : run.ready.filterMap byJob = (byJob job).toList ++ rest.filterMap byJob := by
    rw [isReady, List.filterMap_cons]
    cases byJob job <;> rfl
  unfold carried
  rw [split]
  exact List.perm_append_comm_assoc _ _ _

end Carried

/-! ### Numbers of tasks -/

/-- The numbers of blocked tasks and of those yet to begin. -/
def numbers (run : Run) : List Nat :=
  run.carried (fun task _ => some task) Job.begins?

structure Numbered (run : Run) : Prop where
  once : run.numbers.Nodup
  below : ∀ number ∈ run.numbers, number < run.nextTask

/-- A task takes its turn. -/
structure InHand (task : Nat) (run : Run) : Prop where
  distinct : run.tasks.Distinct
  once : (task :: (run.without task).numbers).Nodup
  below : ∀ number ∈ task :: (run.without task).numbers, number < run.nextTask

variable {run middle after : Run} {task : Nat} {hand : List Context}

theorem absent_of_unnumbered (unnumbered : task ∉ run.numbers) : run.tasks.get? task = none := by
  rw [Table.get?_eq_none_iff]
  intro known
  refine unnumbered (List.mem_append_left _ ?_)
  rw [List.filterMap_eq_map']
  exact known

theorem without_of_unnumbered (unnumbered : task ∉ run.numbers) : run.without task = run := by
  unfold without
  rw [Table.erase_of_absent (absent_of_unnumbered unnumbered)]

section

variable (numbered : run.Numbered)
include numbered

theorem Numbered.distinct : run.tasks.Distinct := by
  have once := (List.nodup_append.mp numbered.once).1
  rwa [List.filterMap_eq_map'] at once

theorem Numbered.absent (begins : task ∈ run.ready.filterMap Job.begins?) :
    run.tasks.get? task = none := by
  rw [Table.get?_eq_none_iff]
  intro known
  have apart := (List.nodup_append.mp numbered.once).2.2
  rw [List.filterMap_eq_map'] at apart
  exact apart task known task begins rfl

theorem Numbered.pop {job : Job} {rest : List Job} (isReady : run.ready = job :: rest) :
    ({ run with ready := rest } : Run).Numbered ∧
      ∀ task, job.begins? = some task → ({ run with ready := rest } : Run).InHand task := by
  have popped := carried_pop (fun task _ => some task) Job.begins? isReady
  have once := popped.nodup_iff.mp numbered.once
  refine ⟨⟨(List.nodup_append.mp once).2.1, fun number member => ?_⟩, fun task begins => ?_⟩
  · exact numbered.below number (popped.mem_iff.mpr (List.mem_append_right _ member))
  · rw [begins, Option.toList_some, List.singleton_append] at once popped
    have same := without_of_unnumbered (List.nodup_cons.mp once).1
    refine ⟨numbered.distinct, ?_, ?_⟩
    · rw [same]
      exact once
    · rw [same]
      exact fun number member => numbered.below number (popped.mem_iff.mpr member)

theorem Numbered.held {activity : Activity} (held : run.tasks.get? task = some activity) :
    run.InHand task := by
  have split := carried_held (fun task _ => some task) Job.begins? numbered.distinct held
  exact ⟨numbered.distinct, split.nodup_iff.mp numbered.once,
    fun number member => numbered.below number (split.mem_iff.mpr member)⟩

theorem Numbered.entered (router : Router) :
    (run.entered router).InHand run.nextTask := by
  have fresh : run.nextTask ∉ run.numbers :=
    fun member => Nat.lt_irrefl _ (numbered.below _ member)
  have same : ((run.entered router).without run.nextTask).numbers = run.numbers := by
    rw [without_of_unnumbered (show run.nextTask ∉ (run.entered router).numbers from fresh)]
    rfl
  refine ⟨numbered.distinct, ?_, ?_⟩
  · rw [same]
    exact List.nodup_cons.mpr ⟨fresh, numbered.once⟩
  · rw [same]
    intro number member
    rcases List.mem_cons.mp member with rfl | member
    · exact Nat.lt_succ_self _
    · exact Nat.lt_succ_of_lt (numbered.below number member)

theorem Numbered.congr (tasks : after.tasks = run.tasks) (ready : after.ready = run.ready)
    (nextTask : after.nextTask = run.nextTask) :
    after.Numbered := by
  constructor
  · simp only [numbers, carried, tasks, ready]
    exact numbered.once
  · simp only [numbers, carried, tasks, ready, nextTask]
    exact numbered.below

theorem Numbered.enqueue {jobs : List Job}
    (none : jobs.filterMap Job.begins? = []) : (run.enqueue jobs).Numbered := by
  have same : (run.enqueue jobs).numbers = run.numbers := by
    rw [numbers, carried_enqueue, none, List.append_nil, numbers]
  exact ⟨same ▸ numbered.once, same ▸ numbered.below⟩

end

namespace InHand

theorem congr (atWork : run.InHand task) (tasks : after.tasks = run.tasks)
    (ready : after.ready = run.ready) (nextTask : after.nextTask = run.nextTask) :
    after.InHand task := by
  have same : (after.without task).numbers = (run.without task).numbers := by
    simp only [numbers, carried, without, tasks, ready]
  refine ⟨tasks ▸ atWork.distinct, same ▸ atWork.once, ?_⟩
  rw [same, nextTask]
  exact atWork.below

theorem ended (atWork : run.InHand task) : (run.without task).Numbered :=
  ⟨(List.nodup_cons.mp atWork.once).2,
    fun number member => atWork.below number (List.mem_cons_of_mem task member)⟩

theorem blocked (atWork : run.InHand task) (activity : Activity) :
    (run.block task activity).Numbered := by
  have split := carried_block (fun task _ => some task) Job.begins? atWork.distinct task activity
  exact ⟨split.nodup_iff.mpr atWork.once,
    fun number member => atWork.below number (split.mem_iff.mp member)⟩

theorem queueLaunch (atWork : run.InHand task) (language : String) (server : Nat) :
    (run.queueLaunch language server).InHand task := by
  have same : ((run.queueLaunch language server).without task).numbers =
      (run.without task).numbers ++ [run.nextTask] :=
    carried_enqueue (fun task _ => some task) Job.begins? (run.without task)
      [.launch run.nextTask language server]
  have fresh : run.nextTask ∉ task :: (run.without task).numbers :=
    fun member => Nat.lt_irrefl _ (atWork.below _ member)
  refine ⟨atWork.distinct, ?_, ?_⟩
  · rw [same, ← List.cons_append]
    exact List.nodup_append.mpr ⟨atWork.once, by simp, fun number member other isNext =>
      fun equal => fresh (List.mem_singleton.mp isNext ▸ equal ▸ member)⟩
  · rw [same, ← List.cons_append]
    intro number member
    rcases List.mem_append.mp member with known | isNext
    · exact Nat.lt_succ_of_lt (atWork.below number known)
    · rw [List.mem_singleton.mp isNext]
      exact Nat.lt_succ_self _

end InHand

theorem InHand.split (atWork : run.InHand task) (purpose : Purpose) (count : Nat)
    {job : Nat → Nat → Job} (joins : ∀ index, index < count →
      (job (run.nextTask + index) index).Joins task (run.nextTask + index)) :
    (run.split task purpose count job).Numbered := by
  have same : (run.split task purpose count job).numbers =
      (run.block task .gathering).numbers ++ List.range' run.nextTask count := by
    have queued := carried_enqueue (fun task _ => some task) Job.begins? (run.block task .gathering)
      ((List.range count).map fun index => job (run.nextTask + index) index)
    refine queued.trans ?_
    rw [List.filterMap_map, List.range'_eq_map_range]
    congr 1
    rw [← List.filterMap_eq_map]
    exact List.filterMap_congr fun index within =>
      (joins index (List.mem_range.mp within)).begins
  have numbered := atWork.blocked .gathering
  constructor
  · rw [same]
    refine List.nodup_append.mpr ⟨numbered.once, List.nodup_range', ?_⟩
    rintro number known other fresh rfl
    have := numbered.below number known
    have := (List.mem_range'_1.mp fresh).1
    exact Nat.lt_irrefl _ (Nat.lt_of_lt_of_le ‹number < _› this)
  · rw [same]
    intro number member
    rcases List.mem_append.mp member with known | fresh
    · exact Nat.lt_of_lt_of_le (numbered.below number known) (Nat.le_add_right _ _)
    · exact (List.mem_range'_1.mp fresh).2

theorem InHand.settle (atWork : run.InHand task) (language : String) (outcome : Except Fault Bool) :
    (run.settle task language outcome).Numbered := by
  have ended : ({ run.without task with
      startUps := run.startUps.adjust language fun startUp =>
        { startUp with settled := some outcome } } : Run).Numbered :=
    atWork.ended.congr rfl rfl rfl
  exact ended.enqueue (by simp [Job.begins?])

end Run

end LanguageBridge
