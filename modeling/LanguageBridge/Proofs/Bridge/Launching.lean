import LanguageBridge.Proofs.Bridge.Bookkeeping
import LanguageBridge.Proofs.Bridge.Tasks

namespace LanguageBridge

/-! Starts under way. Each is in the hands of one task until it ends, and how it has ended can be read
off the child server. -/

/-! ### Tables whose entries give something -/

namespace Table

variable {κ ν μ β : Type} [DecidableEq κ] {table : Table κ ν} {key : κ} {value : ν}

/-- What the entries of a table give together. -/
def gather (give : κ → ν → List β) (table : Table κ ν) : List β :=
  table.entries.flatMap fun entry => give entry.1 entry.2

section Gather

variable (give : κ → ν → List β)

theorem mem_gather (distinct : table.Distinct) {item : β} :
    item ∈ table.gather give ↔ ∃ key value, table.get? key = some value ∧ item ∈ give key value := by
  unfold gather
  rw [List.mem_flatMap]
  constructor
  · rintro ⟨entry, member, given⟩
    exact ⟨entry.1, entry.2, distinct.get?_of_mem member, given⟩
  · rintro ⟨key, value, found, given⟩
    exact ⟨(key, value), mem_entries_of_get? found, given⟩

theorem gather_split (distinct : table.Distinct) (found : table.get? key = some value) :
    (table.gather give).Perm (give key value ++ (table.erase key).gather give) :=
  (distinct.entries_perm found).flatMap_right _

theorem gather_put (absent : table.get? key = none) (value : ν) :
    (table.put key value).gather give = table.gather give ++ give key value := by
  unfold put
  rw [if_neg (by simp [contains, absent])]
  simp [gather]

end Gather

theorem keys_adjust (table : Table κ ν) (key : κ) (change : ν → ν) :
    (table.adjust key change).keys = table.keys := by
  unfold keys adjust
  rw [List.map_map]
  refine List.map_congr_left fun entry _ => ?_
  by_cases same : entry.1 = key <;> simp [same]

theorem Distinct.adjust (distinct : table.Distinct) (key : κ) (change : ν → ν) :
    (table.adjust key change).Distinct := by
  rw [Distinct, keys_adjust]
  exact distinct

theorem erase_adjust (table : Table κ ν) (key : κ) (change : ν → ν) :
    (table.adjust key change).erase key = table.erase key := by
  obtain ⟨entries⟩ := table
  simp only [erase, adjust, mk.injEq]
  induction entries with
  | nil => rfl
  | cons entry rest ih => by_cases same : entry.1 = key <;> simpa [same] using ih

theorem gather_adjust (give : κ → ν → List β) (distinct : table.Distinct)
    (found : table.get? key = some value) (change : ν → ν) :
    ((table.adjust key change).gather give).Perm
      (give key (change value) ++ (table.erase key).gather give) := by
  have changed : (table.adjust key change).get? key = some (change value) := by
    rw [get?_adjust, if_pos rfl, found, Option.map_some]
  have split := gather_split give (distinct.adjust key change) changed
  rw [erase_adjust] at split
  exact split

/-! ### What is seen of a table through a function -/

omit [DecidableEq κ] in
theorem keys_mapValues (table : Table κ ν) (view : ν → μ) :
    (table.mapValues view).keys = table.keys := by
  unfold keys mapValues
  exact List.map_map

omit [DecidableEq κ] in
theorem gather_mapValues (give : κ → μ → List β) (table : Table κ ν) (view : ν → μ) :
    (table.mapValues view).gather give = table.gather fun key value => give key (view value) := by
  unfold gather mapValues
  exact List.flatMap_map _ _ _

theorem mapValues_put (table : Table κ ν) (key : κ) (value : ν) (view : ν → μ) :
    (table.put key value).mapValues view = (table.mapValues view).put key (view value) := by
  have same : (table.mapValues view).contains key = table.contains key := by
    simp [contains, get?_mapValues]
  unfold put
  rw [same]
  split
  · simp only [mapValues, List.map_map, mk.injEq]
    refine List.map_congr_left fun entry _ => ?_
    by_cases here : entry.1 = key <;> simp [here]
  · simp [mapValues]

theorem mapValues_erase (table : Table κ ν) (key : κ) (view : ν → μ) :
    (table.erase key).mapValues view = (table.mapValues view).erase key := by
  simp [mapValues, erase, List.filter_map, Function.comp_def]

theorem mapValues_adjust {view : ν → μ} {change : ν → ν} {changed : μ → μ}
    (seen : ∀ value, view (change value) = changed (view value)) (table : Table κ ν) (key : κ) :
    (table.adjust key change).mapValues view = (table.mapValues view).adjust key changed := by
  simp only [mapValues, adjust, List.map_map, mk.injEq]
  refine List.map_congr_left fun entry _ => ?_
  by_cases here : entry.1 = key <;> simp [here, seen]

theorem mapValues_adjust_unseen {view : ν → μ} {change : ν → ν}
    (unseen : ∀ value, view (change value) = view value) (table : Table κ ν) (key : κ) :
    (table.adjust key change).mapValues view = table.mapValues view := by
  simp only [mapValues, adjust, List.map_map, mk.injEq]
  refine List.map_congr_left fun entry _ => ?_
  by_cases here : entry.1 = key <;> simp [here, unseen]

omit [DecidableEq κ] in
theorem mapValues_mapValues (table : Table κ ν) (change : ν → ν) (view : ν → μ) :
    (table.mapValues change).mapValues view = table.mapValues fun value => view (change value) := by
  simp [mapValues, Function.comp_def]

end Table

/-! ### Child servers -/

namespace Bridge

/-- There is one child server for each language that has any. -/
structure Listed (bridge : Bridge) : Prop where
  placed : ∀ language server, bridge.current.get? language = some server →
    server < bridge.servers.length ∧ (bridge.link server).server.language = language
  listed : ∀ server, server < bridge.servers.length →
    bridge.current.get? (bridge.link server).server.language = some server

/-- Child servers may come in, but those that are there stay as they are, except those in hand. -/
structure Grows (hand : List String) (before after : Bridge) : Prop where
  root : after.root = before.root
  current : ∀ language server, before.current.get? language = some server →
    after.current.get? language = some server
  standing : ∀ language server, before.current.get? language = some server → language ∉ hand →
    (after.link server).server.standing = (before.link server).server.standing

variable {bridge before middle after : Bridge} {language : String} {server : Nat}
  {hand : List String}

theorem Grows.trans (first : before.Grows hand middle) (second : middle.Grows hand after) :
    before.Grows hand after where
  root := second.root.trans first.root
  current := fun language server found => second.current _ _ (first.current language server found)
  standing := fun language server found other =>
    (second.standing language server (first.current _ _ found) other).trans
      (first.standing language server found other)

theorem Grows.keeps_started (grows : before.Grows hand after)
    (found : before.current.get? language = some server) (other : language ∉ hand) :
    (after.link server).server.started = (before.link server).server.started :=
  congrArg Standing.started (grows.standing language server found other)

theorem Grows.keeps_failed (grows : before.Grows hand after)
    (found : before.current.get? language = some server) (other : language ∉ hand) :
    (after.link server).server.failed = (before.link server).server.failed :=
  congrArg Standing.failed (grows.standing language server found other)

theorem Unmoved.grows (unmoved : before.Unmoved after) : before.Grows hand after where
  root := unmoved.root
  current := fun _ _ found => unmoved.current ▸ found
  standing := fun _ server _ _ => unmoved.standing server

theorem Unmoved.listed (unmoved : before.Unmoved after) (listed : before.Listed) : after.Listed := by
  have named : ∀ server, (after.link server).server.language =
      (before.link server).server.language := fun server =>
    congrArg Standing.language (unmoved.standing server)
  have length : after.servers.length = before.servers.length := by
    simpa [Bridge.standings] using congrArg List.length unmoved.standings
  constructor
  · intro language server found
    rw [named, length]
    exact listed.placed language server (unmoved.current ▸ found)
  · intro server within
    rw [named, unmoved.current]
    exact listed.listed server (length ▸ within)

theorem Listed.grows_addServer (listed : bridge.Listed)
    (unknown : bridge.current.get? language = none) (command : List String) :
    bridge.Grows hand (bridge.addServer language command) where
  root := rfl
  current := fun _ _ found => addServer_current unknown found
  standing := fun wanted server found _ => by rw [addServer_link (listed.placed wanted server found).1]

theorem Listed.addServer (listed : bridge.Listed) (unknown : bridge.current.get? language = none)
    (command : List String) : (bridge.addServer language command).Listed := by
  have length : (bridge.addServer language command).servers.length = bridge.servers.length + 1 := by
    simp [Bridge.addServer]
  constructor
  · intro wanted server found
    rw [length]
    rcases addServer_current_cases found with ⟨rfl, rfl⟩ | known
    · exact ⟨Nat.lt_succ_self _, by rw [addServer_link_new]⟩
    · obtain ⟨within, named⟩ := listed.placed wanted server known
      rw [addServer_link within]
      exact ⟨Nat.lt_succ_of_lt within, named⟩
  · intro server within
    rw [length] at within
    rcases Nat.lt_succ_iff_lt_or_eq.mp within with known | rfl
    · rw [addServer_link known]
      exact addServer_current unknown (listed.listed server known)
    · rw [addServer_link_new]
      simp [Bridge.addServer, Table.get?_put]

section SetLink

variable (listed : bridge.Listed) (found : bridge.current.get? language = some server)
include listed found

theorem Listed.link_setLink_same (link : Link) : (bridge.setLink server link).link server = link := by
  rw [link_setLink (listed.placed language server found).1, if_pos rfl]

/-- Other languages have other servers. -/
theorem Listed.grows_setLink (link : Link) :
    bridge.Grows [language] (bridge.setLink server link) where
  root := rfl
  current := fun _ _ => id
  standing := by
    intro wanted wantedServer wantedFound other
    obtain ⟨within, named⟩ := listed.placed language server found
    rw [link_setLink within, if_neg]
    rintro rfl
    have isWanted := (listed.placed wanted wantedServer wantedFound).2
    exact other (List.mem_singleton.mpr (isWanted.symm.trans named))

theorem Listed.setLink {link : Link} (named : link.server.language = language) :
    (bridge.setLink server link).Listed := by
  obtain ⟨within, isNamed⟩ := listed.placed language server found
  have same : ∀ wanted, ((bridge.setLink server link).link wanted).server.language =
      (bridge.link wanted).server.language := by
    intro wanted
    rw [link_setLink within]
    split
    · rename_i isServer
      rw [isServer, named, isNamed]
    · rfl
  have length : (bridge.setLink server link).servers.length = bridge.servers.length := by
    simp [Bridge.setLink]
  constructor
  · intro wanted wantedServer wantedFound
    rw [same, length]
    exact listed.placed wanted wantedServer wantedFound
  · intro wanted wantedWithin
    rw [same]
    exact listed.listed wanted (length ▸ wantedWithin)

end SetLink

/-- Documents and hosts have names, so all documents can be brought to a child server. -/
theorem Orderly.syncAll (orderly : bridge.Orderly) (server : Nat) {documents : List Document}
    (held : ∀ document ∈ documents,
      bridge.store.get? document.hostUri document.language = some document) :
    (Bridge.syncAll server documents bridge).2 = .ok () := by
  induction documents generalizing bridge with
  | nil => rfl
  | cons document rest ih =>
    have isHeld := held document List.mem_cons_self
    obtain ⟨_, hostGiven, languageGiven⟩ := orderly.store.named isHeld
    obtain ⟨aliasUri, encoded⟩ := Alias.exists_encode hostGiven languageGiven
    have synced : bridge.syncTo server document = .ok (bridge.setLink server
        ((bridge.link server).syncDocument aliasUri document.text document.version)) := by
      simp [syncTo, encoded, Except.map]
    have rests := Rests.syncTo (fun _ => isHeld) synced
    unfold Bridge.syncAll
    rw [synced]
    exact ih (rests.orderly orderly) fun other member => held other (List.mem_cons_of_mem document member)

/-- A child server that has come up gets all its documents. -/
theorem Orderly.synced (orderly : bridge.Orderly) (server : Nat) (link : Link) (language : String)
    (fault : Fault) : Bridge.syncAll server ((bridge.setLink server link).documentsIn language)
      (bridge.setLink server link) ≠ (after, .error fault) := by
  intro failed
  have stillOrderly : (bridge.setLink server link).Orderly := ⟨orderly.store, orderly.diagnostics⟩
  have held : ∀ document ∈ (bridge.setLink server link).documentsIn language,
      bridge.store.get? document.hostUri document.language = some document :=
    fun document member => (orderly.store.mem_allDocuments document).mp (List.mem_filter.mp member).1
  have synced := stillOrderly.syncAll server held
  rw [failed] at synced
  contradiction

end Bridge

/-- How a start has ended, as far as it shows. It raises only where the root cannot be told. -/
def ChildServer.Ended (root : Option String) (server : ChildServer) : Except Fault Bool → Prop
  | .ok true => server.started = true
  | .ok false => server.started = false ∧ server.failed = true
  | .error _ => ¬ Link.RootKnown root

theorem ChildServer.Ended.kept {root : Option String} {before after : ChildServer}
    {outcome : Except Fault Bool} (ended : before.Ended root outcome)
    (started : after.started = before.started) (failed : after.failed = before.failed) :
    after.Ended root outcome := by
  unfold ChildServer.Ended at ended ⊢
  rw [started, failed]
  exact ended

theorem ChildServer.Ended.marked {root : Option String} {server : ChildServer}
    {outcome : Except Fault Bool} (ended : server.Ended root outcome) (known : Link.RootKnown root) :
    server.started = true ∨ server.failed = true := by
  rcases outcome with fault | up
  · exact absurd known ended
  · cases up with
    | true => exact Or.inl ended
    | false => exact Or.inr ended.2

/-! ### Starts under way -/

/-- The child server that starts and how its start ended, if it has. -/
def StartUp.state (startUp : StartUp) : Nat × Option (Except Fault Bool) :=
  (startUp.server, startUp.settled)

namespace Run

def starts (run : Run) : Table String (Nat × Option (Except Fault Bool)) :=
  run.startUps.mapValues StartUp.state

def ifUnderWay (language : String) (state : Nat × Option (Except Fault Bool)) : List String :=
  if state.2.isNone then [language] else []

def ifOver (language : String) (state : Nat × Option (Except Fault Bool)) : List String :=
  if state.2.isSome then [language] else []

/-- The languages whose start has not ended. -/
def starting (run : Run) : List String :=
  run.starts.gather ifUnderWay

/-- The languages whose start has ended but is still on record. -/
def ended (run : Run) : List String :=
  run.starts.gather ifOver

/-- The languages that tasks start, or are about to start. -/
def launches (run : Run) : List String :=
  run.carried (fun _ activity => activity.launched?) Job.launched?

/-- Apart from the starts in hand, those that have not ended are those that tasks are at. -/
structure Launching (hand : List String) (run : Run) : Prop where
  distinct : run.starts.Distinct
  launches : (hand ++ run.launches).Perm run.starting
  forgotten : (run.ready.filterMap Job.forgotten?).Perm run.ended
  server : ∀ language state, run.starts.get? language = some state →
    run.bridge.current.get? language = some state.1
  fresh : ∀ language server, run.starts.get? language = some (server, none) → language ∉ hand →
    (run.bridge.link server).server.started = false ∧ (run.bridge.link server).server.failed = false
  settled : ∀ language server outcome, run.starts.get? language = some (server, some outcome) →
    (run.bridge.link server).server.Ended run.bridge.root outcome
  tasks : ∀ task activity, run.tasks.get? task = some activity → activity.Fits False run.bridge
  queued : ∀ task language server, .launch task language server ∈ run.ready →
    run.bridge.current.get? language = some server

variable {run after : Run} {task : Nat} {hand : List String} {language : String} {server : Nat}

theorem starts_get? (run : Run) (language : String) :
    run.starts.get? language = (run.startUps.get? language).map StartUp.state :=
  Table.get?_mapValues _ _ _

theorem mem_starting (distinct : run.starts.Distinct) : language ∈ run.starting ↔
    ∃ server, run.starts.get? language = some (server, none) := by
  rw [starting, Table.mem_gather _ distinct]
  constructor
  · rintro ⟨key, ⟨server, settled⟩, found, member⟩
    cases settled with
    | none =>
      obtain rfl := List.mem_singleton.mp member
      exact ⟨server, found⟩
    | some outcome => contradiction
  · rintro ⟨server, found⟩
    exact ⟨language, (server, none), found, List.mem_singleton_self _⟩

theorem mem_ended (distinct : run.starts.Distinct) : language ∈ run.ended ↔
    ∃ server outcome, run.starts.get? language = some (server, some outcome) := by
  rw [ended, Table.mem_gather _ distinct]
  constructor
  · rintro ⟨key, ⟨server, settled⟩, found, member⟩
    cases settled with
    | none => contradiction
    | some outcome =>
      obtain rfl := List.mem_singleton.mp member
      exact ⟨server, outcome, found⟩
  · rintro ⟨server, outcome, found⟩
    exact ⟨language, (server, some outcome), found, List.mem_singleton_self _⟩

theorem starting_nodup (distinct : run.starts.Distinct) : run.starting.Nodup := by
  have keys : run.starting.Sublist run.starts.keys := by
    unfold starting Table.gather Table.keys
    generalize run.starts.entries = entries
    induction entries with
    | nil => exact .slnil
    | cons entry rest ih =>
      rw [List.flatMap_cons, List.map_cons]
      unfold ifUnderWay
      split
      · exact ih.cons_cons entry.1
      · exact ih.cons entry.1
  exact distinct.sublist keys

namespace Launching

theorem found (launching : Launching hand run) (inHand : language ∈ hand) :
    ∃ server, run.starts.get? language = some (server, none) :=
  (mem_starting launching.distinct).mp
    (launching.launches.mem_iff.mp (List.mem_append_left _ inHand))

/-- Nobody else is at a start in hand. -/
theorem alone (launching : Launching hand run) (inHand : language ∈ hand) :
    language ∉ run.launches := by
  have once := launching.launches.nodup_iff.mpr (starting_nodup launching.distinct)
  exact fun member => (List.nodup_append.mp once).2.2 language inHand language member rfl

theorem ordinary (launching : Launching hand run) (task : Nat) (activity : Activity)
    (held : run.tasks.get? task = some activity) : activity.Ordinary := by
  have fits := launching.tasks task activity held
  cases activity <;> trivial

theorem mem_launches_of_held {activity : Activity} (held : run.tasks.get? task = some activity)
    (launched : activity.launched? = some language) : language ∈ run.launches :=
  List.mem_append_left _ (List.mem_filterMap.mpr ⟨_, Table.mem_entries_of_get? held, launched⟩)

theorem kept (launching : Launching hand run) (grows : run.bridge.Grows hand after.bridge)
    (starts : after.starts = run.starts) (tasks : after.tasks = run.tasks)
    (ready : after.ready = run.ready) : Launching hand after := by
  refine ⟨starts ▸ launching.distinct, ?_, ?_, ?_, ?_, ?_, ?_, ?_⟩
  · simp only [Run.launches, Run.starting, carried, tasks, ready, starts]
    exact launching.launches
  · simp only [Run.ended, ready, starts]
    exact launching.forgotten
  · intro language state found
    exact grows.current _ _ (launching.server language state (starts ▸ found))
  · intro language server found other
    rw [starts] at found
    have known := launching.server language _ found
    rw [grows.keeps_started known other, grows.keeps_failed known other]
    exact launching.fresh language server found other
  · intro language server outcome found
    rw [starts] at found
    have known := launching.server language _ found
    have other : language ∉ hand := by
      intro inHand
      obtain ⟨_, unsettled⟩ := launching.found inHand
      cases found.symm.trans unsettled
    rw [grows.root]
    exact (launching.settled language server outcome found).kept (grows.keeps_started known other)
      (grows.keeps_failed known other)
  · intro task activity held
    rw [tasks] at held
    refine (launching.tasks task activity held).kept grows.root grows.current ?_
    rintro language server stage rfl wanted known
    have other : language ∉ hand := fun inHand =>
      launching.alone inHand (mem_launches_of_held held rfl)
    have same := grows.standing language wanted known other
    exact ⟨congrArg Standing.client same, congrArg Standing.started same⟩
  · intro task language server member
    exact grows.current _ _ (launching.queued task language server (ready ▸ member))

theorem unmoved (launching : Launching hand run) (unmoved : run.Unmoved after) :
    Launching hand after :=
  launching.kept unmoved.bridge.grows (by rw [Run.starts, unmoved.startUps, Run.starts])
    unmoved.tasks unmoved.ready

theorem enqueue (launching : Launching hand run) {jobs : List Job}
    (other : ∀ job ∈ jobs, job.start? = none) : Launching hand (run.enqueue jobs) := by
  have unlaunched : jobs.filterMap Job.launched? = [] := by
    rw [List.filterMap_eq_nil_iff]
    intro job member
    have apart := other job member
    cases job <;> first | rfl | contradiction
  have unforgotten : jobs.filterMap Job.forgotten? = [] := by
    rw [List.filterMap_eq_nil_iff]
    intro job member
    have apart := other job member
    cases job <;> first | rfl | contradiction
  refine { launching with launches := ?_, forgotten := ?_, queued := ?_ }
  · rw [Run.launches, carried_enqueue, unlaunched, List.append_nil]
    exact launching.launches
  · simp only [Run.enqueue, List.filterMap_append, unforgotten, List.append_nil]
    exact launching.forgotten
  · intro task language server member
    rcases List.mem_append.mp member with known | added
    · exact launching.queued task language server known
    · cases other _ added

theorem pop (launching : Launching [] run) {job : Job} {rest : List Job}
    (isReady : run.ready = job :: rest) (other : job.forgotten? = none) :
    Launching job.launched?.toList { run with ready := rest } := by
  refine { launching with launches := ?_, forgotten := ?_, fresh := ?_, queued := ?_ }
  · exact (carried_pop _ _ isReady).symm.trans launching.launches
  · have forgotten := launching.forgotten
    rw [isReady, List.filterMap_cons_none other] at forgotten
    exact forgotten
  · exact fun language server found _ => launching.fresh language server found List.not_mem_nil
  · exact fun task language server member =>
      launching.queued task language server (isReady ▸ List.mem_cons_of_mem job member)

theorem without (launching : Launching hand run) (distinct : run.tasks.Distinct) (task : Nat) :
    Launching (((run.tasks.get? task).bind Activity.launched?).toList ++ hand)
      (run.without task) := by
  refine { launching with launches := ?_, fresh := ?_, tasks := ?_ }
  · have split : run.launches.Perm (((run.tasks.get? task).bind Activity.launched?).toList ++
        (run.without task).launches) := by
      cases held : run.tasks.get? task with
      | none =>
        simp only [Run.launches, carried, Run.without, Table.erase_of_absent held]
        exact .refl _
      | some activity => exact carried_held _ _ distinct held
    rw [List.append_assoc]
    exact (List.perm_append_comm_assoc _ _ _).trans
      ((split.symm.append_left hand).trans launching.launches)
  · exact fun language server found other =>
      launching.fresh language server found fun inHand => other (List.mem_append_right _ inHand)
  · exact fun other activity held => launching.tasks other activity (Table.of_get?_erase held).2

/-- The task waits; if it is at a start, that has come to nothing yet. -/
theorem block {activity : Activity}
    (launching : Launching activity.launched?.toList (run.without task))
    (distinct : run.tasks.Distinct) (fits : activity.Fits False run.bridge)
    (fresh : ∀ language server, activity.launched? = some language →
      run.bridge.current.get? language = some server →
        (run.bridge.link server).server.started = false ∧
          (run.bridge.link server).server.failed = false) :
    Launching [] (run.block task activity) := by
  refine { launching with launches := ?_, fresh := ?_, tasks := ?_ }
  · have split := carried_block (fun _ activity => activity.launched?) Job.launched? distinct task
      activity
    exact split.trans launching.launches
  · intro language server found _
    by_cases here : activity.launched? = some language
    · exact fresh language server here (launching.server language _ found)
    · exact launching.fresh language server found (by simpa using here)
  · intro other held isHeld
    rcases run.held_of_block isHeld with ⟨rfl, rfl⟩ | ⟨_, old⟩
    · exact fits
    · exact launching.tasks other held old

theorem queueLaunch (launching : Launching [] run)
    (known : run.bridge.current.get? language = some server)
    (down : (run.bridge.link server).server.started = false)
    (untried : (run.bridge.link server).server.failed = false)
    (first : run.startUps.get? language = none) :
    Launching [] (run.queueLaunch language server) := by
  have absent : run.starts.get? language = none := by rw [starts_get?, first, Option.map_none]
  have starts : (run.queueLaunch language server).starts =
      run.starts.put language (server, none) := Table.mapValues_put _ _ _ _
  have cases_of : ∀ wanted state,
      (run.queueLaunch language server).starts.get? wanted = some state →
      (wanted = language ∧ state = (server, none)) ∨ run.starts.get? wanted = some state := by
    intro wanted state found
    rw [starts] at found
    exact (Table.of_get?_put found).imp_right And.right
  refine ⟨starts ▸ launching.distinct.put _ _, ?_, ?_, ?_, ?_, ?_, launching.tasks, ?_⟩
  · rw [Run.starting, starts, Table.gather_put _ absent]
    have queued : (run.queueLaunch language server).launches = run.launches ++ [language] :=
      carried_enqueue (fun _ activity => activity.launched?) Job.launched? run
        [.launch run.nextTask language server]
    rw [queued]
    exact launching.launches.append_right [language]
  · rw [Run.ended, starts, Table.gather_put _ absent]
    have same : (run.queueLaunch language server).ready.filterMap Job.forgotten? =
        run.ready.filterMap Job.forgotten? := by
      simp [Run.queueLaunch, Run.enqueue, Job.forgotten?]
    rw [same]
    exact launching.forgotten.trans (.of_eq (List.append_nil _).symm)
  · intro wanted state found
    rcases cases_of wanted state found with ⟨rfl, rfl⟩ | old
    · exact known
    · exact launching.server wanted state old
  · intro wanted wantedServer found _
    rcases cases_of wanted _ found with ⟨rfl, isState⟩ | old
    · cases isState
      exact ⟨down, untried⟩
    · exact launching.fresh wanted wantedServer old List.not_mem_nil
  · intro wanted wantedServer outcome found
    rcases cases_of wanted _ found with ⟨_, isState⟩ | old
    · cases isState
    · exact launching.settled wanted wantedServer outcome old
  · intro task wanted wantedServer member
    rcases List.mem_append.mp member with old | new
    · exact launching.queued task wanted wantedServer old
    · cases List.mem_singleton.mp new
      exact known

theorem forget (launching : Launching [] run) {rest : List Job}
    (isReady : run.ready = .forget language :: rest) :
    Launching [] { run with ready := rest, startUps := run.startUps.erase language } := by
  have forgotten : (language :: rest.filterMap Job.forgotten?).Perm run.ended := by
    have all := launching.forgotten
    rwa [isReady] at all
  obtain ⟨server, outcome, found⟩ := (mem_ended launching.distinct).mp
    (forgotten.mem_iff.mp List.mem_cons_self)
  have starts : ({ run with ready := rest, startUps := run.startUps.erase language } : Run).starts =
      run.starts.erase language := Table.mapValues_erase _ _ _
  have of_erased : ∀ wanted state, (run.starts.erase language).get? wanted = some state →
      run.starts.get? wanted = some state := fun _ _ isFound => (Table.of_get?_erase isFound).2
  refine ⟨starts ▸ launching.distinct.erase _, ?_, ?_, ?_, ?_, ?_, launching.tasks, ?_⟩
  · have popped := carried_pop (fun _ activity => activity.launched?) Job.launched? isReady
    have split := Table.gather_split ifUnderWay launching.distinct found
    rw [Run.starting, starts]
    exact popped.symm.trans (launching.launches.trans split)
  · have split := Table.gather_split ifOver launching.distinct found
    rw [Run.ended, starts]
    exact (forgotten.trans split).cons_inv
  · exact fun wanted state isFound =>
      launching.server wanted state (of_erased _ _ (starts ▸ isFound))
  · exact fun wanted wantedServer isFound other =>
      launching.fresh wanted wantedServer (of_erased _ _ (starts ▸ isFound)) other
  · exact fun wanted wantedServer outcome isFound =>
      launching.settled wanted wantedServer outcome (of_erased _ _ (starts ▸ isFound))
  · exact fun task wanted wantedServer member =>
      launching.queued task wanted wantedServer (isReady ▸ List.mem_cons_of_mem _ member)

/-- A start ends; all who wait for it are to be told. -/
theorem settle (launching : Launching [language] (run.without task))
    (known : run.bridge.current.get? language = some server) {outcome : Except Fault Bool}
    (ended : (run.bridge.link server).server.Ended run.bridge.root outcome) :
    Launching [] (run.settle task language outcome) := by
  obtain ⟨listed, found⟩ := launching.found List.mem_cons_self
  obtain rfl : server = listed :=
    Option.some.inj (known.symm.trans (launching.server language _ found))
  have starts : (run.settle task language outcome).starts =
      run.starts.adjust language fun state => (state.1, some outcome) := by
    refine Table.mapValues_adjust ?_ run.startUps language
    exact fun _ => rfl
  have cases_of : ∀ wanted state, (run.settle task language outcome).starts.get? wanted = some state →
      (wanted = language ∧ state = (server, some outcome)) ∨
        (wanted ≠ language ∧ run.starts.get? wanted = some state) := by
    intro wanted state isFound
    rw [starts, Table.get?_adjust] at isFound
    split at isFound
    · rename_i same
      rw [show run.starts.get? language = some (server, none) from found] at isFound
      exact Or.inl ⟨same, (Option.some.inj isFound).symm⟩
    · rename_i apart
      exact Or.inr ⟨apart, isFound⟩
  let told := ((run.startUps.get? language).map StartUp.waiters).getD []
  have ready : (run.settle task language outcome).ready =
      run.ready ++ .forget language :: told.map fun waiter => .relay waiter outcome := rfl
  refine ⟨starts ▸ launching.distinct.adjust _ _, ?_, ?_, ?_, ?_, ?_, launching.tasks, ?_⟩
  · have same : (run.settle task language outcome).launches = (run.without task).launches := by
      have queued := carried_enqueue (fun _ activity => activity.launched?) Job.launched?
        (run.without task) (.forget language :: told.map fun waiter => .relay waiter outcome)
      refine queued.trans ?_
      simp [Job.launched?, Run.launches]
    have split := Table.gather_split ifUnderWay launching.distinct found
    have changed := Table.gather_adjust ifUnderWay launching.distinct found
      fun state => (state.1, some outcome)
    rw [Run.starting, starts, same]
    exact (launching.launches.trans split).cons_inv.trans changed.symm
  · have split := Table.gather_split ifOver launching.distinct found
    have changed := Table.gather_adjust ifOver launching.distinct found
      fun state => (state.1, some outcome)
    have queued : (run.settle task language outcome).ready.filterMap Job.forgotten? =
        run.ready.filterMap Job.forgotten? ++ [language] := by
      simp [ready, Job.forgotten?, Function.comp_def]
    rw [Run.ended, starts, queued]
    have before := launching.forgotten.trans split
    exact (before.append_right [language]).trans
      (List.perm_append_comm.trans changed.symm)
  · intro wanted state isFound
    rcases cases_of wanted state isFound with ⟨rfl, rfl⟩ | ⟨_, old⟩
    · exact known
    · exact launching.server wanted state old
  · intro wanted wantedServer isFound _
    rcases cases_of wanted _ isFound with ⟨_, isState⟩ | ⟨apart, old⟩
    · cases isState
    · exact launching.fresh wanted wantedServer old (by simpa using apart)
  · intro wanted wantedServer other isFound
    rcases cases_of wanted _ isFound with ⟨_, isState⟩ | ⟨_, old⟩
    · cases isState
      exact ended
    · exact launching.settled wanted wantedServer other old
  · intro starter wanted wantedServer member
    rw [ready] at member
    rcases List.mem_append.mp member with old | new
    · exact launching.queued starter wanted wantedServer old
    · simp at new

end Launching

end Run

end LanguageBridge
