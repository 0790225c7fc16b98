import LanguageBridge.Proofs.Bridge.Upkeep

namespace LanguageBridge

/-! The table of pending requests against those who have the requests in hand: blocked tasks, queued
jobs, and the task that takes its turn. -/

namespace Pending

/-- The table holds these requests and no others, each under its own number. -/
structure Accounts (pending : Pending) (contexts : List Context) : Prop where
  distinct : pending.contexts.Distinct
  filed : ∀ entry ∈ pending.contexts.entries, entry.2.id = entry.1 ∧ entry.1 < pending.next
  held : pending.contexts.values.Perm contexts

/-- Some requests leave the table. -/
def Shrinks (before after : Pending) : Prop :=
  after.next = before.next ∧
    ∃ keep : Nat → Bool, after.contexts.entries =
      before.contexts.entries.filter fun entry => keep entry.1

variable {pending before middle after : Pending} {contexts others issued : List Context}
  {context : Context}

theorem Shrinks.refl (pending : Pending) : pending.Shrinks pending :=
  ⟨rfl, fun _ => true, by simp⟩

theorem Shrinks.trans (first : before.Shrinks middle) (second : middle.Shrinks after) :
    before.Shrinks after := by
  obtain ⟨next, keep, same⟩ := first
  obtain ⟨laterNext, keepLater, laterSame⟩ := second
  refine ⟨laterNext.trans next, fun key => keepLater key && keep key, ?_⟩
  rw [laterSame, same, List.filter_filter]

theorem Shrinks.discard (pending : Pending) (id : Nat) : pending.Shrinks (pending.discard id) :=
  ⟨rfl, fun key => key ≠ id, rfl⟩

namespace Accounts

theorem perm (accounts : pending.Accounts contexts) (same : contexts.Perm others) :
    pending.Accounts others :=
  ⟨accounts.distinct, accounts.filed, accounts.held.trans same⟩

theorem found (accounts : pending.Accounts contexts) (member : context ∈ contexts) :
    pending.contexts.get? context.id = some context := by
  obtain ⟨entry, isEntry, rfl⟩ := List.mem_map.mp (accounts.held.mem_iff.mpr member)
  rw [(accounts.filed entry isEntry).1]
  exact accounts.distinct.get?_of_mem isEntry

theorem discard (accounts : pending.Accounts (context :: contexts)) :
    (pending.discard context.id).Accounts contexts := by
  refine ⟨accounts.distinct.erase _, fun entry member => ?_, ?_⟩
  · exact accounts.filed entry (List.mem_filter.mp member).1
  · have split := (accounts.distinct.entries_perm (accounts.found List.mem_cons_self)).map Prod.snd
    exact (split.symm.trans accounts.held).cons_inv

theorem enter (accounts : pending.Accounts contexts) (number : context.id = pending.next) :
    Accounts ⟨pending.next + 1, pending.contexts.put context.id context⟩ (context :: contexts) := by
  have fresh : pending.contexts.get? context.id = none := by
    rw [Table.get?_eq_none_iff]
    intro known
    obtain ⟨entry, member, same⟩ := List.mem_map.mp known
    have below := (accounts.filed entry member).2
    rw [same, number] at below
    exact Nat.lt_irrefl _ below
  have entries := accounts.distinct.put_perm context.id context
  rw [Table.erase_of_absent fresh] at entries
  refine ⟨accounts.distinct.put _ _, fun entry member => ?_, ?_⟩
  · rcases List.mem_cons.mp (entries.mem_iff.mp member) with rfl | known
    · exact ⟨rfl, number ▸ Nat.lt_succ_self _⟩
    · exact (accounts.filed entry known).imp_right Nat.lt_succ_of_lt
  · exact (entries.map Prod.snd).trans (accounts.held.cons context)

theorem issue (accounts : pending.Accounts contexts) (issues : pending.Issues issued after) :
    after.Accounts (issued ++ contexts) := by
  induction issued generalizing pending contexts with
  | nil =>
    cases issues
    exact accounts
  | cons context rest ih =>
    exact (ih (accounts.enter issues.1) issues.2).perm List.perm_middle

/-- What has left the table and what is left make up what was there. -/
theorem partition (accounts : before.Accounts contexts) (shrinks : before.Shrinks after) :
    contexts.Perm ((contexts.filter fun context => !after.contains context.id) ++
      after.contexts.values) := by
  obtain ⟨_, keep, same⟩ := shrinks
  have kept : ∀ entry ∈ before.contexts.entries,
      after.contains entry.2.id = keep entry.1 := by
    intro entry member
    rw [(accounts.filed entry member).1, contains, Table.contains]
    cases isKept : keep entry.1 with
    | true =>
      have known : entry.1 ∈ after.contexts.keys :=
        List.mem_map.mpr ⟨entry, by rw [same]; exact List.mem_filter.mpr ⟨member, isKept⟩, rfl⟩
      rw [Option.isSome_iff_ne_none, ne_eq, Table.get?_eq_none_iff]
      exact not_not_intro known
    | false =>
      rw [Option.isSome_eq_false_iff, Option.isNone_iff_eq_none, Table.get?_eq_none_iff]
      intro known
      obtain ⟨other, isOther, sameKey⟩ := List.mem_map.mp known
      rw [same] at isOther
      have otherKept := (List.mem_filter.mp isOther).2
      rw [sameKey, isKept] at otherKept
      contradiction
  have left : after.contexts.values =
      before.contexts.values.filter fun context => after.contains context.id := by
    rw [Table.values, same, Table.values, List.filter_map]
    congr 1
    exact List.filter_congr fun entry member => (kept entry member).symm
  rw [left]
  have split := List.filter_append_perm (fun context => !after.contains context.id) contexts
  simp only [Bool.not_not] at split
  exact split.symm.trans ((accounts.held.filter _).symm.append_left _)

end Accounts

end Pending

namespace Run

/-- The requests that blocked tasks and queued jobs have in hand. -/
def requests (run : Run) : List Context :=
  run.carried (fun _ activity => activity.context?) Job.context?

def Balanced (run : Run) : Prop :=
  run.bridge.router.pending.Accounts run.requests

variable {run middle after : Run} {task : Nat} {errand : Errand} {language : String}
  {server : Nat}

theorem Balanced.congr (balanced : run.Balanced)
    (pending : after.bridge.router.pending = run.bridge.router.pending)
    (tasks : after.tasks = run.tasks) (ready : after.ready = run.ready) : after.Balanced := by
  unfold Balanced requests carried
  rw [pending, tasks, ready]
  exact balanced

theorem Balanced.enqueue (balanced : run.Balanced) {jobs : List Job}
    (none : jobs.filterMap Job.context? = []) : (run.enqueue jobs).Balanced := by
  have same : (run.enqueue jobs).requests = run.requests := by
    rw [requests, carried_enqueue, none, List.append_nil, requests]
  unfold Balanced
  rw [same]
  exact balanced

theorem balanced_block (distinct : run.tasks.Distinct) (task : Nat) (activity : Activity)
    (accounts : run.bridge.router.pending.Accounts
      (activity.context?.toList ++ (run.without task).requests)) :
    (run.block task activity).Balanced :=
  accounts.perm (carried_block (fun _ activity => activity.context?) Job.context? distinct task
    activity).symm

theorem requests_queueLaunch (run : Run) (language : String) (server : Nat) :
    (run.queueLaunch language server).requests = run.requests := by
  have queued := carried_enqueue (fun _ activity => activity.context?) Job.context? run
    [.launch run.nextTask language server]
  rw [List.filterMap_cons_none rfl, List.filterMap_nil, List.append_nil] at queued
  exact queued

theorem Ends.balanced (ends : Ends task errand run after)
    (accounts : run.bridge.router.pending.Accounts
      (errand.requests ++ (run.without task).requests)) : after.Balanced := by
  induction ends with
  | @drop context recipient chosen run after router left memory next ih =>
    refine ih ?_
    have discarded : (run.bridge.router.pending.discard context.id).Accounts
        (run.without task).requests := accounts.discard
    rw [← left] at discarded
    exact discarded
  | finish run none outcome =>
    rw [none] at accounts
    exact accounts
  | report run parent index outcome =>
    have ended : (run.without task).Balanced := accounts
    exact ended.enqueue rfl

theorem Turn.balanced (turn : Turn task errand run after) (distinct : run.tasks.Distinct)
    (accounts : run.bridge.router.pending.Accounts
      (errand.requests ++ (run.without task).requests)) : after.Balanced := by
  induction turn with
  | move move next ih =>
    have unmoved := move.unmoved
    refine ih (unmoved.tasks ▸ distinct) ?_
    rw [move.requests]
    unfold requests carried without
    rw [unmoved.bridge.pending, unmoved.tasks, unmoved.ready]
    exact accounts
  | create unknown configured next ih => exact ih distinct accounts
  | @launch errand run after language server found down untried first next ih =>
    refine ih distinct ?_
    have same : ((run.queueLaunch language server).without task).requests =
        (run.without task).requests := (run.without task).requests_queueLaunch language server
    rw [same]
    exact accounts
  | ends relieved ends => exact ends.balanced accounts
  | hold run key holds =>
    rw [holds.requests] at accounts
    exact (balanced_block distinct task _ accounts).congr rfl rfl rfl
  | await awaits current down found unsettled =>
    rw [awaits.requests] at accounts
    exact (balanced_block distinct task _ accounts).congr rfl rfl rfl
  | @split errand run purpose count job relieved joins requests searched =>
    have same : (run.split task purpose count job).requests =
        (run.block task .gathering).requests ++
          (List.range count).filterMap fun index => (job (run.nextTask + index) index).context? := by
      have queued := carried_enqueue (fun _ activity => activity.context?) Job.context?
        (run.block task .gathering)
        ((List.range count).map fun index => job (run.nextTask + index) index)
      rw [List.filterMap_map] at queued
      exact queued
    have held := carried_block (fun _ activity => activity.context?) Job.context? distinct task
      .gathering
    unfold Balanced
    rw [same, requests]
    exact accounts.perm (List.perm_append_comm.trans (held.symm.append_right _))

theorem Ends.shrinks (ends : Ends task errand run after) :
    run.bridge.router.pending.Shrinks after.bridge.router.pending := by
  induction ends with
  | drop left memory next ih => exact (left ▸ Pending.Shrinks.discard _ _).trans ih
  | finish run none outcome => exact .refl _
  | report run parent index outcome => exact .refl _

theorem Turn.shrinks (turn : Turn task errand run after) :
    run.bridge.router.pending.Shrinks after.bridge.router.pending := by
  induction turn with
  | move move next ih => exact move.unmoved.bridge.pending ▸ ih
  | create unknown configured next ih => exact ih
  | launch found down untried first next ih => exact ih
  | ends relieved ends => exact ends.shrinks
  | hold run key holds => exact .refl _
  | await awaits current down found unsettled => exact .refl _
  | split relieved joins requests searched => exact .refl _

theorem Launched.pending {launched : Link × Attempt LaunchStage Bool}
    (result : Launched run task language server launched after) :
    after.bridge.router.pending = run.bridge.router.pending := by
  cases result with
  | waits blocked => rfl
  | settles ended short => rfl
  | synced ended synced => exact (Bridge.Unmoved.syncAll synced).pending

theorem Launched.balanced {launched : Link × Attempt LaunchStage Bool}
    (result : Launched run task language server launched after) (distinct : run.tasks.Distinct)
    (others : (run.without task).Balanced) : after.Balanced := by
  have pending := result.pending
  have settled : ∀ (bridge : Bridge) (outcome : Except Fault Bool),
      bridge.router.pending = run.bridge.router.pending →
      ((run.setBridge bridge).settle task language outcome).Balanced := by
    intro bridge outcome same
    have ended : ({ run.without task with
        bridge := bridge
        startUps := run.startUps.adjust language fun startUp =>
          { startUp with settled := some outcome } } : Run).Balanced := others.congr same rfl rfl
    exact ended.enqueue (by simp [Job.context?])
  cases result with
  | @waits key stage blocked =>
    exact (balanced_block distinct task (.launching language server stage) others).congr rfl rfl rfl
  | settles ended short => exact settled _ _ pending
  | synced ended synced => exact settled _ _ pending

/-! ### Members that are still to begin -/

/-- A task that has split and was cancelled since then. -/
def GivenUp (run : Run) (task : Nat) : Prop :=
  (run.groups.get? task).any Group.cancelled = true

/-- Whoever is about to begin as part of a task is still wanted there. -/
def Wanted (run : Run) : Prop :=
  ∀ job ∈ run.ready, ∀ parent member, job.Joins parent member → ¬ run.GivenUp parent

theorem Wanted.kept (wanted : run.Wanted)
    (ready : ∀ job ∈ after.ready, ∀ parent member, job.Joins parent member → job ∈ run.ready)
    (groups : ∀ parent, after.GivenUp parent → run.GivenUp parent) : after.Wanted :=
  fun job queued parent member joins givenUp =>
    wanted job (ready job queued parent member joins) parent member joins (groups parent givenUp)

theorem Wanted.enqueue (wanted : run.Wanted) {jobs : List Job}
    (alone : ∀ job ∈ jobs, ∀ parent member, ¬ job.Joins parent member) :
    (run.enqueue jobs).Wanted :=
  wanted.kept (fun job queued parent member joins =>
    (List.mem_append.mp queued).resolve_right fun new => alone job new parent member joins)
    fun _ => id

theorem Wanted.pop (wanted : run.Wanted) {job : Job} {rest : List Job}
    (isReady : run.ready = job :: rest) : ({ run with ready := rest } : Run).Wanted :=
  wanted.kept (fun _ queued _ _ _ => isReady ▸ List.mem_cons_of_mem job queued) fun _ => id

theorem GivenUp.of_erase {parent : Nat}
    (givenUp : ({ run with groups := run.groups.erase task } : Run).GivenUp parent) :
    run.GivenUp parent := by
  unfold GivenUp at givenUp ⊢
  rw [Table.get?_erase] at givenUp
  split at givenUp
  · contradiction
  · exact givenUp

theorem GivenUp.of_put {parent : Nat} {group : Group}
    (given : ({ run with groups := run.groups.put task group } : Run).GivenUp parent) :
    (parent = task ∧ group.cancelled = true) ∨ (parent ≠ task ∧ run.GivenUp parent) := by
  unfold GivenUp at given ⊢
  rw [Table.get?_put] at given
  split at given
  · rename_i same
    exact Or.inl ⟨same, given⟩
  · rename_i other
    exact Or.inr ⟨other, given⟩

theorem Notes.givenUp {parent wanted : Nat} (notes : run.Notes parent after)
    (givenUp : after.GivenUp wanted) : run.GivenUp wanted := by
  rcases notes with rfl | ⟨earlier, group, found, _, same, rfl⟩
  · exact givenUp
  · rcases givenUp.of_put with ⟨rfl, cancelled⟩ | ⟨_, old⟩
    · rw [GivenUp, found]
      exact same.symm.trans cancelled
    · exact old

theorem Move.givenUp {later : Errand} {parent : Nat} (move : Move task errand run later after)
    (givenUp : after.GivenUp parent) : run.GivenUp parent := by
  cases move with
  | close run => exact givenUp.of_erase
  | _ => exact givenUp

theorem Ends.wanted (ends : Ends task errand run after) (wanted : run.Wanted) : after.Wanted := by
  induction ends with
  | drop left memory next ih => exact ih wanted
  | finish run none outcome => exact wanted
  | report run parent index outcome =>
    have ended : (run.without task).Wanted := wanted
    exact ended.enqueue (by simp [Job.Joins])

theorem Turn.wanted (turn : Turn task errand run after) (wanted : run.Wanted) : after.Wanted := by
  induction turn with
  | move move next ih =>
    exact ih (wanted.kept (fun _ queued _ _ _ => move.unmoved.ready ▸ queued)
      fun _ => move.givenUp)
  | create unknown configured next ih => exact ih wanted
  | @launch errand run after language server found down untried first next ih =>
    have queued : (run.enqueue [.launch run.nextTask language server]).Wanted :=
      wanted.enqueue (by simp [Job.Joins])
    exact ih queued
  | ends relieved ends => exact ends.wanted wanted
  | hold run key holds => exact wanted
  | await awaits current down found unsettled => exact wanted
  | split relieved joins requests searched =>
    intro job queued parent member isMember givenUp
    rcases givenUp.of_put with ⟨_, cancelled⟩ | ⟨other, old⟩
    · contradiction
    · rcases List.mem_append.mp queued with known | new
      · exact wanted job known parent member isMember old
      · obtain ⟨index, within, rfl⟩ := List.mem_map.mp new
        exact other ((joins index (List.mem_range.mp within)).parent_eq isMember)

theorem Launched.wanted {launched : Link × Attempt LaunchStage Bool}
    (result : Launched run task language server launched after) (wanted : run.Wanted) :
    after.Wanted := by
  have settled (bridge : Bridge) (outcome : Except Fault Bool) :
      ((run.setBridge bridge).settle task language outcome).Wanted := by
    have ended : ({ run.without task with
        bridge := bridge
        startUps := run.startUps.adjust language fun startUp =>
          { startUp with settled := some outcome } } : Run).Wanted := wanted
    exact ended.enqueue (by simp [Job.Joins])
  cases result with
  | waits blocked => exact wanted
  | settles ended short => exact settled _ _
  | synced ended synced => exact settled _ _

section Jobs

variable {job : Job} {rest : List Job}

theorem Worked.balanced (worked : Worked { run with ready := rest } job after) (tidy : run.Tidy)
    (balanced : run.Balanced) (wanted : run.Wanted) (isReady : run.ready = job :: rest) :
    after.Balanced := by
  let popped : Run := { run with ready := rest }
  have distinct : popped.tasks.Distinct := tidy.numbered.distinct
  have taken : popped.bridge.router.pending.Accounts (job.context?.toList ++ popped.requests) :=
    balanced.perm (carried_pop (fun _ activity => activity.context?) Job.context? isReady)
  have alone : ∀ task, job.begins? = some task → popped.without task = popped := by
    intro task begins
    unfold without
    rw [Table.erase_of_absent]
    exact tidy.numbered.absent (List.mem_filterMap.mpr ⟨job, isReady ▸ List.mem_cons_self, begins⟩)
  have resumed : ∀ {task signal activity}, job = .resume task signal →
      popped.tasks.get? task = some activity → popped.bridge.router.pending.Accounts
        ((activity.errand signal).requests ++ (popped.without task).requests) := by
    intro task signal activity isJob held
    rw [isJob] at taken
    rw [Activity.requests_errand]
    exact taken.perm (carried_held (fun _ activity => activity.context?) Job.context? distinct held)
  cases worked with
  | begun joins turn =>
    refine turn.balanced distinct ?_
    rw [Job.requests_errand, alone _ joins.begins]
    exact taken
  | withheld joins cancelled ends =>
    exact absurd cancelled (wanted job (isReady ▸ List.mem_cons_self) _ _ joins)
  | launch launched =>
    refine launched.balanced distinct ?_
    have others := alone _ rfl
    rw [← others] at taken
    exact Balanced.congr taken rfl rfl rfl
  | relaunched held launched => exact launched.balanced distinct (resumed rfl held)
  | resumed held other meant turn => exact turn.balanced distinct (resumed rfl held)
  | abandoned held ends => exact ends.balanced (resumed rfl held)
  | ignored idle => exact taken
  | stopped held stops => exact absurd (tidy.launching.ordinary _ _ held) stops
  | forgotten language => exact Balanced.congr taken rfl rfl rfl
  | relayed task outcome => exact Balanced.enqueue taken rfl
  | noted notes =>
    have unmoved := notes.unmoved
    exact Balanced.congr taken unmoved.bridge.pending unmoved.tasks unmoved.ready
  | woken notes =>
    have unmoved := notes.unmoved
    exact (Balanced.congr taken unmoved.bridge.pending unmoved.tasks unmoved.ready).enqueue rfl

theorem Worked.wanted (worked : Worked { run with ready := rest } job after) (tidy : run.Tidy)
    (wanted : run.Wanted) (isReady : run.ready = job :: rest) : after.Wanted := by
  have popped := wanted.pop isReady
  cases worked with
  | begun joins turn => exact turn.wanted popped
  | withheld joins cancelled ends => exact ends.wanted popped
  | launch launched => exact launched.wanted popped
  | relaunched held launched => exact launched.wanted popped
  | resumed held other meant turn => exact turn.wanted popped
  | abandoned held ends => exact ends.wanted popped
  | ignored idle => exact popped
  | stopped held stops => exact absurd (tidy.launching.ordinary _ _ held) stops
  | forgotten language => exact popped
  | relayed task outcome => exact popped.enqueue (by simp [Job.Joins])
  | noted notes =>
    exact popped.kept (fun _ queued _ _ _ => notes.unmoved.ready ▸ queued) fun _ => notes.givenUp
  | woken notes =>
    have noted := popped.kept (fun _ queued _ _ _ => notes.unmoved.ready ▸ queued)
      fun _ => notes.givenUp
    exact noted.enqueue (by simp [Job.Joins])

theorem Worked.shrinks (worked : Worked { run with ready := rest } job after) (tidy : run.Tidy) :
    run.bridge.router.pending.Shrinks after.bridge.router.pending := by
  have same : ∀ {before later : Pending}, later = before → before.Shrinks later :=
    fun equal => equal ▸ .refl _
  cases worked with
  | begun joins turn => exact turn.shrinks
  | withheld joins cancelled ends => exact ends.shrinks
  | launch launched => exact same launched.pending
  | relaunched held launched => exact same launched.pending
  | resumed held other meant turn => exact turn.shrinks
  | abandoned held ends => exact ends.shrinks
  | ignored idle => exact .refl _
  | stopped held stops => exact absurd (tidy.launching.ordinary _ _ held) stops
  | forgotten language => exact .refl _
  | relayed task outcome => exact .refl _
  | noted notes => exact same notes.unmoved.bridge.pending
  | woken notes => exact same notes.unmoved.bridge.pending

end Jobs

/-! ### Events -/

theorem Balanced.interrupt (balanced : run.Balanced) (task : Nat) : (run.interrupt task).Balanced := by
  have queued : (run.enqueue [.resume task .cancelled]).Balanced := balanced.enqueue rfl
  exact queued.congr rfl rfl rfl

theorem Balanced.withdraw (balanced : run.Balanced) (withdrawn : run.withdraw? task = some after) :
    after.Balanced := by
  obtain ⟨_, _, rfl⟩ := Option.map_eq_some_iff.mp withdrawn
  split
  · unfold interruptGroup
    exact List.foldlRecOn (motive := fun later : Run => later.Balanced) _ Run.interrupt
      (balanced.congr rfl rfl rfl) fun _ kept member _ => kept.interrupt member
  · exact balanced.interrupt task

theorem Acted.balanced {event : BridgeEvent} (acted : Acted run event after) (tidy : run.Tidy)
    (balanced : run.Balanced) (wanted : run.Wanted) : after.Balanced := by
  cases acted with
  | @entered command after issues turn =>
    have fresh : run.nextTask ∉ (run.taking command).numbers :=
      fun member => Nat.lt_irrefl _ (tidy.numbered.below _ member)
    refine turn.balanced tidy.numbered.distinct ?_
    rw [requests_errandOf, without_of_unnumbered fresh]
    exact balanced.issue issues
  | worked isReady worked => exact worked.balanced tidy balanced wanted isReady
  | freed key task reply =>
    have unheld : ({ run with held := run.held.erase key } : Run).Balanced :=
      balanced.congr rfl rfl rfl
    exact unheld.enqueue rfl
  | prepared peer call replies => exact balanced.congr rfl rfl rfl
  | withdrawn withdrawn => exact balanced.withdraw withdrawn
  | unchanged outside => exact balanced

/-- Whoever is cancelled has no members that are still to begin. -/
def SparesMembers (run : Run) : BridgeEvent → Prop
  | .cancel task => ∀ job ∈ run.ready, ∀ member, ¬ job.Joins task member
  | _ => True

theorem Wanted.interrupt (wanted : run.Wanted) (task : Nat) : (run.interrupt task).Wanted := by
  have queued : (run.enqueue [.resume task .cancelled]).Wanted := wanted.enqueue (by simp [Job.Joins])
  exact queued

theorem Wanted.withdraw (wanted : run.Wanted) (spares : run.SparesMembers (.cancel task))
    (withdrawn : run.withdraw? task = some after) : after.Wanted := by
  obtain ⟨_, _, rfl⟩ := Option.map_eq_some_iff.mp withdrawn
  split
  · rename_i group found
    unfold interruptGroup
    refine List.foldlRecOn (motive := fun later : Run => later.Wanted) _ Run.interrupt ?_
      fun _ kept member _ => kept.interrupt member
    intro job queued parent member joins givenUp
    rcases givenUp.of_put with ⟨rfl, _⟩ | ⟨_, old⟩
    · exact spares job queued member joins
    · exact wanted job queued parent member joins old
  · exact wanted.interrupt task

theorem Acted.wanted {event : BridgeEvent} (acted : Acted run event after) (tidy : run.Tidy)
    (wanted : run.Wanted) (spares : run.SparesMembers event) : after.Wanted := by
  cases acted with
  | entered issues turn => exact turn.wanted wanted
  | worked isReady worked => exact worked.wanted tidy wanted isReady
  | freed key task reply =>
    have unheld : ({ run with held := run.held.erase key } : Run).Wanted := wanted
    exact unheld.enqueue (by simp [Job.Joins])
  | prepared peer call replies => exact wanted
  | withdrawn withdrawn => exact wanted.withdraw spares withdrawn
  | unchanged outside => exact wanted

theorem Acted.pending {event : BridgeEvent} (acted : Acted run event after) (tidy : run.Tidy) :
    ∃ entered : Pending, run.bridge.router.pending.Issues (run.issued event) entered ∧
      entered.Shrinks after.bridge.router.pending := by
  cases acted with
  | entered issues turn => exact ⟨_, issues, turn.shrinks⟩
  | worked isReady worked => exact ⟨_, rfl, worked.shrinks tidy⟩
  | freed key task reply => exact ⟨_, rfl, .refl _⟩
  | prepared peer call replies => exact ⟨_, rfl, .refl _⟩
  | withdrawn withdrawn =>
    rw [bridge_withdraw? withdrawn]
    exact ⟨_, rfl, .refl _⟩
  | unchanged outside =>
    cases event with
    | command command => exact absurd rfl (outside command)
    | _ => exact ⟨_, rfl, .refl _⟩

end Run

end LanguageBridge
