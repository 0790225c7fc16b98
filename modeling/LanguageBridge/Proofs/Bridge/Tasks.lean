import LanguageBridge.Proofs.Addressing
import LanguageBridge.Proofs.Bridge.Hosts
import LanguageBridge.Proofs.Bridge.Turns

namespace LanguageBridge

/-! What is true of the tasks of a bridge between any two steps. A task that brings documents to
child servers still owes those behind the one it waits for; every other document has been brought
to its server, if that is up. -/

/-! ### What tasks and jobs rely on -/

/-- Where requests are confined, each is about a document. -/
def Activity.Fits (confined : Prop) (bridge : Bridge) : Activity → Prop
  | .requesting context server _ =>
    (confined → context.Addressed) ∧ bridge.current.get? context.language = some server
  | .answering context _ => confined → context.Addressed
  | .launching language server stage =>
    bridge.current.get? language = some server ∧
      (bridge.link server).Waiting bridge.root stage
  | .serving _ task => task.Serves
  | .stopping _ _ _ _ => False
  | _ => True

def Job.Fits (confined : Prop) (bridge : Bridge) : Job → Prop
  | .launch _ language server => bridge.current.get? language = some server
  | .send _ context _ _ => confined → context.Addressed
  | .search _ server _ _ _ =>
    ¬ confined ∧ ∃ language, bridge.current.get? language = some server
  | .resume _ (.started (.error _)) | .relay _ (.error _) => ¬ Link.RootKnown bridge.root
  | _ => True

theorem Link.Waiting.kept {root : Option String} {before after : Link} {stage : LaunchStage}
    (waiting : before.Waiting root stage)
    (same : after.server.client = before.server.client ∧
      after.server.started = before.server.started) : after.Waiting root stage := by
  unfold Link.Waiting at waiting ⊢
  rw [same.1, same.2]
  exact waiting

section Kept

variable {confined : Prop} {before after : Bridge}

theorem Activity.Fits.kept {activity : Activity} (fits : activity.Fits confined before)
    (root : after.root = before.root)
    (current : ∀ language server, before.current.get? language = some server →
      after.current.get? language = some server)
    (states : ∀ language server stage, activity = .launching language server stage →
      Bridge.SameState language before after) : activity.Fits confined after := by
  cases activity with
  | requesting context server recipient => exact ⟨fits.1, current _ _ fits.2⟩
  | launching language server stage =>
    obtain ⟨found, waiting⟩ := fits
    refine ⟨current _ _ found, ?_⟩
    rw [root]
    exact waiting.kept (states language server stage rfl server found)
  | _ => exact fits

theorem Job.Fits.kept {job : Job} (fits : job.Fits confined before)
    (root : after.root = before.root)
    (current : ∀ language server, before.current.get? language = some server →
      after.current.get? language = some server) : job.Fits confined after := by
  unfold Job.Fits at fits ⊢
  split at fits
  · exact current _ _ fits
  · exact fits
  · obtain ⟨free, language, found⟩ := fits
    exact ⟨free, language, current _ _ found⟩
  · rw [root]
    exact fits
  · rw [root]
    exact fits
  · trivial

end Kept

/-- The task that a job begins or ends. -/
def Job.task? : Job → Option Nat
  | .launch task _ _ | .send task _ _ _ | .search task _ _ _ _ => some task
  | .resume task .cancelled => some task
  | _ => none

theorem Job.Joins.task {job : Job} {parent member : Nat} (joins : job.Joins parent member) :
    job.task? = some member := by
  cases job <;> first | exact congrArg some joins.1 | exact joins.elim

namespace Run

/-- A task that brings no documents to child servers. -/
def Unbound (run : Run) (task : Nat) : Prop :=
  task < run.nextTask ∧
    ∀ host language rest, run.tasks.get? task ≠ some (.syncing host language rest)

/-- A task that is yet to begin or to end, or that is part of another. -/
def Refers (run : Run) (task : Nat) : Prop :=
  (∃ job ∈ run.ready, job.task? = some task) ∨
    ∃ parent group, run.groups.get? parent = some group ∧ task ∈ group.members

/-- The start of a language is in the hands of this task, and of nobody else. -/
structure Begun (run : Run) (task : Nat) (language : String) : Prop where
  unqueued : language ∉ run.ready.filterMap Job.start?
  known : (run.startUps.get? language).isSome
  only : ∀ other server stage,
    run.tasks.get? other = some (.launching language server stage) → other = task

/-- No language is started twice at a time. -/
structure OneStart (run : Run) : Prop where
  once : (run.ready.filterMap Job.start?).Nodup
  known : ∀ language ∈ run.ready.filterMap Job.start?, (run.startUps.get? language).isSome
  begun : ∀ task language server stage,
    run.tasks.get? task = some (.launching language server stage) → run.Begun task language

/-- Tasks and jobs fit the bridge, whoever is referred to brings no documents, only an unknown root
lets a start end in a fault, and no language is started twice at a time. -/
structure Sound (confined : Prop) (run : Run) : Prop where
  bridge : run.bridge.Sound
  tasks : ∀ task activity, run.tasks.get? task = some activity →
    task < run.nextTask ∧ activity.Fits confined run.bridge
  jobs : ∀ job ∈ run.ready, job.Fits confined run.bridge
  unbound : ∀ task, run.Refers task → run.Unbound task
  faults : ∀ language startUp fault, run.startUps.get? language = some startUp →
    startUp.settled = some (.error fault) → ¬ Link.RootKnown run.bridge.root
  starts : run.OneStart

/-! ### What is owed -/

/-- A task will bring the document of a language to its child server, but waits for another one. -/
def OwedBy (run : Run) (task : Nat) (host language : String) : Prop :=
  ∃ awaited rest, run.tasks.get? task = some (.syncing host awaited rest) ∧ language ∈ rest

def Owes (run : Run) (host language : String) : Prop :=
  ∃ task, run.OwedBy task host language

/-- Every document has been brought to its child server, or will be. -/
def Settled (run : Run) : Prop :=
  ∀ host language document, run.bridge.store.get? host language = some document →
    run.bridge.Told host language document ∨ run.Owes host language

/-- The same while a task has some languages of a host in hand. -/
def Covers (run : Run) (task : Nat) (host : String) (languages : List String) : Prop :=
  ∀ wanted language document, run.bridge.store.get? wanted language = some document →
    run.bridge.Told wanted language document ∨
      (∃ other, other ≠ task ∧ run.OwedBy other wanted language) ∨
        (wanted = host ∧ language ∈ languages)

variable {confined : Prop} {run before after : Run} {kind : Effect → Prop} {task : Nat}

theorem OwedBy.bound {host language : String} (owed : run.OwedBy task host language) :
    ¬ run.Unbound task := by
  obtain ⟨awaited, rest, held, _⟩ := owed
  exact fun unbound => unbound.2 host awaited rest held

theorem Settled.covers (settled : run.Settled) (unbound : run.Unbound task) (host : String)
    (languages : List String) : run.Covers task host languages := by
  intro wanted language document held
  refine (settled wanted language document held).imp_right fun ⟨other, owed⟩ => Or.inl ⟨other, ?_, owed⟩
  rintro rfl
  exact owed.bound unbound

/-- A task that waits with languages in hand owes these and no others. -/
theorem Settled.covers_syncing (settled : run.Settled) {host awaited : String} {rest : List String}
    (held : run.tasks.get? task = some (.syncing host awaited rest)) : run.Covers task host rest := by
  intro wanted language document documentHeld
  refine (settled wanted language document documentHeld).imp_right fun ⟨other, owed⟩ => ?_
  by_cases same : other = task
  · subst same
    obtain ⟨_, _, otherHeld, inRest⟩ := owed
    cases held.symm.trans otherHeld
    exact Or.inr ⟨rfl, inRest⟩
  · exact Or.inl ⟨other, same, owed⟩

theorem Covers.cons {host : String} {rest : List String} (covers : run.Covers task host rest)
    (language : String) : run.Covers task host (language :: rest) := by
  intro wanted wantedLanguage document held
  refine (covers wanted wantedLanguage document held).imp_right ?_
  exact Or.imp_right fun inHand => ⟨inHand.1, List.mem_cons_of_mem _ inHand.2⟩

theorem Covers.kept {host : String} {languages : List String}
    (covers : before.Covers task host languages) (keeps : before.bridge.Keeps kind after.bridge)
    (tasks : after.tasks = before.tasks) : after.Covers task host languages := by
  intro wanted language document held
  rw [keeps.store] at held
  simp only [OwedBy, tasks]
  exact (covers wanted language document held).imp_left (keeps.told wanted language document held)

theorem Covers.drop {host language : String} {rest : List String}
    (covers : run.Covers task host (language :: rest))
    (told : ∀ document, run.bridge.store.get? host language = some document →
      run.bridge.Told host language document) : run.Covers task host rest := by
  intro wanted wantedLanguage document held
  rcases covers wanted wantedLanguage document held with known | owed | ⟨rfl, member⟩
  · exact Or.inl known
  · exact Or.inr (Or.inl owed)
  · rcases List.mem_cons.mp member with rfl | inRest
    · exact Or.inl (told document held)
    · exact Or.inr (Or.inr ⟨rfl, inRest⟩)

theorem Covers.settled {host : String} (covers : before.Covers task host [])
    (keeps : before.bridge.Keeps kind after.bridge)
    (others : ∀ other, other ≠ task → after.tasks.get? other = before.tasks.get? other) :
    after.Settled := by
  intro wanted language document held
  rw [keeps.store] at held
  rcases covers wanted language document held with told | ⟨other, different, owed⟩ | ⟨_, member⟩
  · exact Or.inl (keeps.told wanted language document held told)
  · refine Or.inr ⟨other, ?_⟩
    rw [OwedBy, others other different]
    exact owed
  · contradiction

theorem Settled.kept (settled : before.Settled) (unbound : before.Unbound task)
    (keeps : before.bridge.Keeps kind after.bridge)
    (others : ∀ other, other ≠ task → after.tasks.get? other = before.tasks.get? other) :
    after.Settled :=
  (settled.covers unbound "" []).settled keeps others

/-! ### One start at a time -/

/-- A task that is referred to was so before, or by a job that has been queued since. -/
theorem Refers.of_queued (referred : after.Refers task) {jobs : List Job}
    (ready : after.ready = before.ready ++ jobs) (groups : after.groups = before.groups) :
    before.Refers task ∨ ∃ job ∈ jobs, job.task? = some task := by
  rcases referred with ⟨job, member, named⟩ | inGroup
  · rw [ready] at member
    rcases List.mem_append.mp member with old | new
    · exact Or.inl (Or.inl ⟨job, old, named⟩)
    · exact Or.inr ⟨job, new, named⟩
  · rw [groups] at inGroup
    exact Or.inl (Or.inr inGroup)

theorem OneStart.extend (starts : before.OneStart) {added : List String}
    (queue : after.ready.filterMap Job.start? = before.ready.filterMap Job.start? ++ added)
    (once : added.Nodup)
    (known : ∀ language, (before.startUps.get? language).isSome →
      (after.startUps.get? language).isSome)
    (fresh : ∀ language ∈ added, language ∉ before.ready.filterMap Job.start? ∧
      (after.startUps.get? language).isSome)
    (launching : ∀ task language server stage,
      after.tasks.get? task = some (.launching language server stage) →
        before.tasks.get? task = some (.launching language server stage) ∧ language ∉ added) :
    after.OneStart := by
  refine ⟨?_, ?_, ?_⟩
  · rw [queue]
    refine List.nodup_append.mpr ⟨starts.once, once, ?_⟩
    rintro language queued other isAdded rfl
    exact (fresh language isAdded).1 queued
  · intro language queued
    rw [queue] at queued
    rcases List.mem_append.mp queued with old | new
    · exact known language (starts.known language old)
    · exact (fresh language new).2
  · intro task language server stage held
    obtain ⟨heldBefore, notAdded⟩ := launching task language server stage held
    have begun := starts.begun task language server stage heldBefore
    refine ⟨?_, known language begun.known, ?_⟩
    · rw [queue, List.mem_append]
      exact fun queued => queued.elim begun.unqueued notAdded
    · intro other otherServer otherStage otherHeld
      exact begun.only other otherServer otherStage
        (launching other language otherServer otherStage otherHeld).1

theorem OneStart.kept (starts : before.OneStart)
    (queue : after.ready.filterMap Job.start? = before.ready.filterMap Job.start?)
    (known : ∀ language, (before.startUps.get? language).isSome →
      (after.startUps.get? language).isSome)
    (launching : ∀ task language server stage,
      after.tasks.get? task = some (.launching language server stage) →
        before.tasks.get? task = some (.launching language server stage)) : after.OneStart :=
  starts.extend (queue.trans (List.append_nil _).symm) List.nodup_nil known (by simp)
    fun task language server stage held =>
      ⟨launching task language server stage held, List.not_mem_nil⟩

/-! ### Small steps -/

namespace Sound

theorem setBridge (sound : run.Sound confined) {bridge : Bridge} (bridgeSound : bridge.Sound)
    (root : bridge.root = run.bridge.root)
    (current : ∀ language server, run.bridge.current.get? language = some server →
      bridge.current.get? language = some server)
    (states : ∀ task language server stage,
      run.tasks.get? task = some (.launching language server stage) →
        Bridge.SameState language run.bridge bridge) : (run.setBridge bridge).Sound confined where
  bridge := bridgeSound
  tasks := by
    intro task activity held
    obtain ⟨below, fits⟩ := sound.tasks task activity held
    refine ⟨below, fits.kept root current ?_⟩
    rintro language server stage rfl
    exact states task language server stage held
  jobs := fun job member => (sound.jobs job member).kept root current
  unbound := sound.unbound
  faults := by
    intro language startUp fault found settled
    rw [Run.setBridge, root]
    exact sound.faults language startUp fault found settled
  starts := sound.starts.kept rfl (fun _ => id) fun _ _ _ _ => id

theorem keep (sound : run.Sound confined) {bridge : Bridge} (keeps : run.bridge.Keeps kind bridge)
    (states : ∀ language, Bridge.SameState language run.bridge bridge) :
    (run.setBridge bridge).Sound confined :=
  sound.setBridge keeps.sound keeps.root keeps.current fun _ language _ _ _ => states language

theorem aside (sound : run.Sound confined) {bridge : Bridge} (aside : run.bridge.Aside bridge) :
    (run.setBridge bridge).Sound confined :=
  sound.keep (aside.keeps sound.bridge) aside.sameState

theorem retask (sound : before.Sound confined) (bridge : after.bridge = before.bridge)
    (ready : after.ready = before.ready) (groups : after.groups = before.groups)
    (nextTask : after.nextTask = before.nextTask)
    (startUps : ∀ language, (after.startUps.get? language).map StartUp.settled =
      (before.startUps.get? language).map StartUp.settled)
    (tasks : ∀ task activity, after.tasks.get? task = some activity →
      before.tasks.get? task = some activity ∨
        task < before.nextTask ∧ activity.Fits confined before.bridge ∧
          (∀ language server stage, activity ≠ .launching language server stage) ∧
            ((∃ host language rest, activity = .syncing host language rest) →
              ¬ before.Refers task)) : after.Sound confined := by
  have refers : ∀ task, after.Refers task ↔ before.Refers task := by
    intro task
    rw [Refers, Refers, ready, groups]
  have launching : ∀ task language server stage,
      after.tasks.get? task = some (.launching language server stage) →
        before.tasks.get? task = some (.launching language server stage) := by
    intro task language server stage held
    rcases tasks task _ held with old | ⟨_, _, other, _⟩
    · exact old
    · exact absurd rfl (other language server stage)
  refine ⟨bridge ▸ sound.bridge, ?_, ?_, ?_, ?_, ?_⟩
  · intro task activity held
    rw [nextTask, bridge]
    rcases tasks task activity held with old | ⟨below, fits, _⟩
    · exact sound.tasks task activity old
    · exact ⟨below, fits⟩
  · rw [ready, bridge]
    exact sound.jobs
  · intro task referred
    obtain ⟨below, unbound⟩ := sound.unbound task ((refers task).mp referred)
    refine ⟨nextTask ▸ below, fun host language rest held => ?_⟩
    rcases tasks task _ held with old | ⟨_, _, _, unreferred⟩
    · exact unbound host language rest old
    · exact unreferred ⟨host, language, rest, rfl⟩ ((refers task).mp referred)
  · intro language startUp fault found settled
    have same := startUps language
    rw [found, Option.map_some, settled] at same
    obtain ⟨old, oldFound, oldSettled⟩ := Option.map_eq_some_iff.mp same.symm
    rw [bridge]
    exact sound.faults language old fault oldFound oldSettled
  · refine sound.starts.kept (by rw [ready]) ?_ launching
    intro language known
    rw [← Option.isSome_map, startUps, Option.isSome_map]
    exact known

theorem blocked (sound : before.Sound confined) (bridge : after.bridge = before.bridge)
    (ready : after.ready = before.ready) (groups : after.groups = before.groups)
    (nextTask : after.nextTask = before.nextTask)
    (startUps : ∀ language, (after.startUps.get? language).map StartUp.settled =
      (before.startUps.get? language).map StartUp.settled)
    {activity : Activity} (tasks : after.tasks = before.tasks.put task activity)
    (below : task < before.nextTask) (fits : activity.Fits confined before.bridge)
    (noStart : ∀ language server stage, activity ≠ .launching language server stage)
    (free : (∃ host language rest, activity = .syncing host language rest) →
      ¬ before.Refers task) : after.Sound confined := by
  refine sound.retask bridge ready groups nextTask startUps fun other held isHeld => ?_
  rw [tasks] at isHeld
  rcases Table.of_get?_put isHeld with ⟨rfl, rfl⟩ | ⟨_, old⟩
  · exact Or.inr ⟨below, fits, noStart, free⟩
  · exact Or.inl old

theorem later (sound : run.Sound confined) {nextTask : Nat} (more : run.nextTask ≤ nextTask) :
    ({ run with nextTask := nextTask } : Run).Sound confined where
  bridge := sound.bridge
  tasks := fun task activity held =>
    ⟨Nat.lt_of_lt_of_le (sound.tasks task activity held).1 more, (sound.tasks task activity held).2⟩
  jobs := sound.jobs
  unbound := fun task referred =>
    ⟨Nat.lt_of_lt_of_le (sound.unbound task referred).1 more, (sound.unbound task referred).2⟩
  faults := sound.faults
  starts := sound.starts.kept rfl (fun _ => id) fun _ _ _ _ => id

theorem regroup (sound : run.Sound confined) (groups : Table Nat Group)
    (members : ∀ parent group, groups.get? parent = some group →
      ∀ member ∈ group.members, run.Unbound member) :
    ({ run with groups := groups } : Run).Sound confined where
  bridge := sound.bridge
  tasks := sound.tasks
  jobs := sound.jobs
  unbound := by
    rintro task (queued | ⟨parent, group, found, member⟩)
    · exact sound.unbound task (Or.inl queued)
    · exact members parent group found task member
  faults := sound.faults
  starts := sound.starts.kept rfl (fun _ => id) fun _ _ _ _ => id

theorem enqueue (sound : run.Sound confined) {jobs : List Job}
    (fits : ∀ job ∈ jobs, job.Fits confined run.bridge)
    (unbound : ∀ job ∈ jobs, ∀ task, job.task? = some task → run.Unbound task)
    (noStart : jobs.filterMap Job.start? = []) : (run.enqueue jobs).Sound confined := by
  refine ⟨sound.bridge, sound.tasks, ?_, ?_, sound.faults, ?_⟩
  · intro job member
    rcases List.mem_append.mp member with old | new
    · exact sound.jobs job old
    · exact fits job new
  · intro task referred
    rcases referred.of_queued rfl rfl with old | ⟨job, new, named⟩
    · exact sound.unbound task old
    · exact unbound job new task named
  · refine sound.starts.kept ?_ (fun _ => id) fun _ _ _ _ => id
    rw [Run.enqueue, List.filterMap_append, noStart, List.append_nil]

end Sound

end Run

end LanguageBridge
