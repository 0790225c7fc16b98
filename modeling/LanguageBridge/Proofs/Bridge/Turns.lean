import LanguageBridge.Proofs.Bridge.Documents
import LanguageBridge.Proofs.Bridge.Events
import LanguageBridge.Proofs.Child.Messages

namespace LanguageBridge

/-! What a task can do when it is its turn, and what a job can come to. On its way a task may log,
publish, bring documents, ask or answer; it may create child servers and queue their starts; then it
ends, waits or splits. Whatever is true of all steps is read off from here. -/

/-! ### What tasks and jobs are about -/

/-- What a task has to do when it is its turn. -/
inductive Errand where
  /-- To bring the documents of a host to the child servers of these languages. -/
  | sync (host : String) (languages : List String)
  /-- To ask a child server on behalf of somebody; it may have been chosen before. -/
  | ask (requests : List Context) (recipient : Recipient) (chosen : Option Nat)
  /-- To have all child servers searched. -/
  | search
  | other

namespace Errand

/-- The requests that a task has in hand. -/
def requests : Errand → List Context
  | ask requests _ _ => requests
  | _ => []

def recipient : Errand → Recipient
  | ask _ recipient _ => recipient
  | _ => .direct

end Errand

namespace Activity

/-- The request that a blocked task is about. -/
def context? : Activity → Option Context
  | requesting context _ _ | answering context _ => some context
  | _ => none

/-- The language whose start a blocked task waits for. -/
def awaited? : Activity → Option String
  | syncing _ language _ | ensuring language => some language
  | requesting context _ _ => some context.language
  | _ => none

/-- The language that a blocked task starts. -/
def launched? : Activity → Option String
  | launching language _ _ => some language
  | _ => none

/-- Waiting for a reply that has nothing to do with starts and stops. -/
def Plain : Activity → Prop
  | answering _ _ | querying _ _ => True
  | serving _ task => task.Serves
  | _ => False

/-- What a task can be blocked in while no child server is stopped. -/
def Ordinary : Activity → Prop
  | stopping _ _ _ _ => False
  | serving _ task => task.Serves
  | _ => True

/-- What a blocked task has to do when it hears something. -/
def errand : Activity → Signal → Errand
  | syncing host language rest, .started (.ok true) => .sync host (language :: rest)
  | syncing host _ rest, .started (.ok false) => .sync host rest
  | requesting context server recipient, _ => .ask [context] recipient (some server)
  | answering context recipient, _ => .ask [context] recipient none
  | querying parent index, _ => .ask [] (.member parent index) none
  | _, _ => .other

theorem requests_errand (activity : Activity) (signal : Signal) :
    (activity.errand signal).requests = activity.context?.toList := by
  unfold errand
  split <;> first | rfl | (cases activity <;> first | rfl | simp_all)

end Activity

namespace Job

/-- The request that a job sends. -/
def context? : Job → Option Context
  | send _ context _ _ => some context
  | _ => none

/-- The child server that a job searches. -/
def searched? : Job → Option Nat
  | search _ server _ _ _ => some server
  | _ => none

/-- The task that a job begins. -/
def begins? : Job → Option Nat
  | launch task _ _ | send task _ _ _ | search task _ _ _ _ => some task
  | _ => none

/-- The language whose start a job begins. -/
def launched? : Job → Option String
  | launch _ language _ => some language
  | _ => none

/-- The language whose start a job lays to rest. -/
def forgotten? : Job → Option String
  | forget language => some language
  | _ => none

/-- The language whose start a job is part of. -/
def start? : Job → Option String
  | launch _ language _ | forget language => some language
  | _ => none

/-- The task that a job tells of the end of a start. -/
def told? : Job → Option Nat
  | relay task _ | resume task (.started _) => some task
  | _ => none

/-- What the member that a job begins has to do. -/
def errand : Job → Errand
  | send _ context parent index => .ask [context] (.member parent index) none
  | search _ server _ parent index => .ask [] (.member parent index) (some server)
  | _ => .other

theorem requests_errand (job : Job) : job.errand.requests = job.context?.toList := by
  cases job <;> rfl

/-- The job begins this task as part of another. -/
def Joins (parent member : Nat) : Job → Prop
  | send task _ split _ | search task _ _ split _ => task = member ∧ split = parent
  | _ => False

section Joins

variable {job : Job} {parent member : Nat} (joins : job.Joins parent member)
include joins

theorem Joins.begins : job.begins? = some member := by
  cases job <;> first | exact congrArg some joins.1 | exact joins.elim

theorem Joins.unstarted : job.start? = none := by
  cases job <;> first | rfl | exact joins.elim

theorem Joins.untold : job.told? = none := by
  cases job <;> first | rfl | exact joins.elim

theorem Joins.parent_eq {other begun : Nat} (joinsOther : job.Joins other begun) :
    other = parent := by
  cases job <;> first | exact joinsOther.2.symm.trans joins.2 | exact joins.elim

end Joins

end Job

namespace Errand

/-- How a task waits for the start of a child server. -/
inductive Awaits : Errand → String → Nat → Activity → Prop where
  | documents (host language : String) (rest : List String) (server : Nat) :
      Awaits (sync host (language :: rest)) language server (.syncing host language rest)
  | request (context : Context) (recipient : Recipient) (chosen : Option Nat) (server : Nat) :
      Awaits (ask [context] recipient chosen) context.language server
        (.requesting context server recipient)
  | start (language : String) (server : Nat) : Awaits other language server (.ensuring language)

/-- How a task waits for a reply. -/
inductive Holds : Errand → Activity → Prop where
  | answer (context : Context) (recipient : Recipient) (chosen : Option Nat) :
      Holds (ask [context] recipient chosen) (.answering context recipient)
  | found (parent index : Nat) (chosen : Option Nat) :
      Holds (ask [] (.member parent index) chosen) (.querying parent index)
  | served (server : Nat) {task : ChildTask} (serves : task.Serves) :
      Holds other (.serving server task)

variable {errand : Errand} {activity : Activity} {language : String} {server : Nat}

theorem Awaits.requests (awaits : errand.Awaits language server activity) :
    errand.requests = activity.context?.toList := by
  cases awaits <;> rfl

theorem Awaits.awaited (awaits : errand.Awaits language server activity) :
    activity.awaited? = some language := by
  cases awaits <;> rfl

theorem Holds.requests (holds : errand.Holds activity) :
    errand.requests = activity.context?.toList := by
  cases holds <;> rfl

theorem Holds.plain (holds : errand.Holds activity) : activity.Plain := by
  cases holds with
  | served server serves => exact serves
  | _ => trivial

end Errand

/-! ### Requests that are taken out -/

/-- What routers remember of completions. -/
def Router.memory (router : Router) : Table String String × Option String :=
  (router.completionLanguages, router.lastCompletionHost)

theorem Pending.consume_discards {pending left : Pending} {id : Nat} {context : Context}
    (consumed : pending.consume id = .ok (context, left)) : left = pending.discard id := by
  unfold Pending.consume at consumed
  split at consumed
  · cases consumed
    rfl
  · contradiction

theorem Router.complete_discards {router left : Router} {id : Nat} {context : Context}
    (completed : router.complete id = .ok (context, left)) :
    left.pending = router.pending.discard id ∧ left.memory = router.memory := by
  unfold Router.complete at completed
  split at completed
  · contradiction
  · rename_i consumed
    cases completed
    exact ⟨Pending.consume_discards consumed, rfl⟩

namespace Run

/-! ### Turns -/

/-- The documents of a language cannot be brought to its child server. -/
def Fails (run : Run) (host language : String) : Prop :=
  (∃ startUp fault, run.startUps.get? language = some startUp ∧
      startUp.settled = some (.error fault)) ∨
    ∃ fault, run.bridge.syncDocument host language = .error fault

/-- Nothing is left to be brought to child servers, unless it cannot be. -/
def Relieves (run : Run) : Errand → Prop
  | .sync host (language :: _) => run.Fails host language
  | _ => True

/-- What a task does on its way. -/
inductive Move (task : Nat) : Errand → Run → Errand → Run → Prop where
  | log {errand : Errand} (run : Run) (severity : Severity) (text : String) :
      Move task errand run errand (run.log severity text)
  | close {errand : Errand} (run : Run) :
      Move task errand run errand { run with groups := run.groups.erase task }
  | settings (run : Run) (settings : Value) :
      Move task .other run .other (run.setBridge (run.bridge.updateSettings settings))
  | receive (run : Run) (server : Nat) (message : Inbound) :
      Move task .other run .other (run.setBridge
        (run.bridge.setLink server ((run.bridge.link server).receive message).1))
  | serve {served : ChildTask} (run : Run) (server : Nat) (serves : served.Serves) (reply : Reply) :
      Move task .other run .other (run.setBridge
        (run.bridge.setLink server (served.resume (run.bridge.link server) reply).1))
  | publish {host : String} (run : Run) :
      Move task (.sync host []) run (.sync host []) (run.setBridge (run.bridge.publish host))
  | skip {host language : String} {rest : List String} {run : Run}
      (down : run.bridge.Down language) :
      Move task (.sync host (language :: rest)) run (.sync host rest) run
  | sync {host language : String} {rest : List String} {run : Run} {bridge : Bridge}
      (synced : run.bridge.syncDocument host language = .ok bridge) :
      Move task (.sync host (language :: rest)) run (.sync host rest) (run.setBridge bridge)
  | request {context : Context} {recipient : Recipient} {chosen : Option Nat} {run : Run}
      {server : Nat}
      (known : run.bridge.current.get? context.language = some server ∨ chosen = some server) :
      Move task (.ask [context] recipient chosen) run (.ask [context] recipient chosen)
        (run.setBridge (run.bridge.setLink server
          ((run.bridge.link server).request context.method context.params).1))
  | query {recipient : Recipient} (run : Run) (server : Nat) (params : Params) :
      Move task (.ask [] recipient (some server)) run (.ask [] recipient (some server))
        (run.setBridge (run.bridge.setLink server
          ((run.bridge.link server).request .workspaceSymbol params).1))

/-- The end of a task; a request that it has in hand leaves the table first. -/
inductive Ends (task : Nat) : Errand → Run → Run → Prop where
  | drop {context : Context} {recipient : Recipient} {chosen : Option Nat} {run after : Run}
      {router : Router} (left : router.pending = run.bridge.router.pending.discard context.id)
      (memory : router.memory = run.bridge.router.memory)
      (next : Ends task (.ask [] recipient chosen)
        (run.setBridge { run.bridge with router := router }) after) :
      Ends task (.ask [context] recipient chosen) run after
  | finish {errand : Errand} (run : Run) (none : errand.requests = []) (outcome : Outcome) :
      Ends task errand run (run.finish task outcome)
  | report {chosen : Option Nat} (run : Run) (parent index : Nat) (outcome : Outcome) :
      Ends task (.ask [] (.member parent index) chosen) run
        ({ run with tasks := run.tasks.erase task }.enqueue [.report parent index outcome])

/-- What a task does until it ends or waits. -/
inductive Turn (task : Nat) : Errand → Run → Run → Prop where
  | move {errand later : Errand} {run middle after : Run} (move : Move task errand run later middle)
      (next : Turn task later middle after) : Turn task errand run after
  | create {errand : Errand} {run after : Run} {language : String} {command : List String}
      (unknown : run.bridge.current.get? language = none)
      (configured : run.bridge.config.commandFor? language = some command)
      (next : Turn task errand (run.setBridge (run.bridge.addServer language command)) after) :
      Turn task errand run after
  | launch {errand : Errand} {run after : Run} {language : String} {server : Nat}
      (found : run.bridge.current.get? language = some server)
      (down : (run.bridge.link server).server.started = false)
      (untried : (run.bridge.link server).server.failed = false)
      (first : run.startUps.get? language = none)
      (next : Turn task errand (run.queueLaunch language server) after) : Turn task errand run after
  | ends {errand : Errand} {run after : Run} (relieved : run.Relieves errand)
      (ends : Ends task errand run after) : Turn task errand run after
  | hold {errand : Errand} {activity : Activity} (run : Run) (key : Option String)
      (holds : errand.Holds activity) : Turn task errand run (run.hold task key activity)
  | await {errand : Errand} {run : Run} {language : String} {server : Nat} {startUp : StartUp}
      {activity : Activity} (awaits : errand.Awaits language server activity)
      (current : run.bridge.current.get? language = some server)
      (down : run.bridge.Down language) (found : run.startUps.get? language = some startUp)
      (unsettled : startUp.settled = none) :
      Turn task errand run (run.await task language activity)
  | split {errand : Errand} {run : Run} {purpose : Purpose} {count : Nat} {job : Nat → Nat → Job}
      (relieved : run.Relieves errand) (joins : ∀ index, index < count →
        (job (run.nextTask + index) index).Joins task (run.nextTask + index))
      (requests : ((List.range count).filterMap fun index =>
        (job (run.nextTask + index) index).context?) = errand.requests)
      (searched : ∀ index, index < count → ∀ server,
        (job (run.nextTask + index) index).searched? = some server →
          errand = .search ∧ server ∈ run.bridge.current.values) :
      Turn task errand run (run.split task purpose count job)

variable {run middle after : Run} {task : Nat} {errand : Errand}

theorem Turn.finish (run : Run) (task : Nat) (outcome : Outcome) :
    Turn task .other run (run.finish task outcome) :=
  .ends trivial (.finish run rfl outcome)

/-! ### Child servers on first use -/

/-- What whoever asks for a child server learns. -/
def Ensured.Tells (run : Run) (language : String) : Ensured → Prop
  | .ready server => run.bridge.current.get? language = some server
  | .absent => run.bridge.Down language
  | .raised fault => ∃ startUp, run.startUps.get? language = some startUp ∧
      startUp.settled = some (.error fault)
  | .starting server => run.bridge.current.get? language = some server ∧
      run.bridge.Down language ∧
      ∃ startUp, run.startUps.get? language = some startUp ∧ startUp.settled = none

theorem ensure_tells (run : Run) (language : String) :
    (run.ensure language).2.Tells (run.ensure language).1 language := by
  unfold ensure
  split
  · rename_i missing
    have absent := Bridge.findServer_none missing
    simp [Ensured.Tells, Bridge.Down, absent]
  · rename_i bridge server isFound
    have found := Bridge.findServer_some isFound
    dsimp only
    split
    · exact found
    · rename_i notUp
      have down : bridge.Down language := by
        intro present presentFound
        cases found.symm.trans presentFound
        simp [Link.client?, notUp]
      split
      · exact down
      · split
        · refine ⟨found, down, { server := server }, ?_, rfl⟩
          simp [queueLaunch, enqueue, Table.get?_put]
        · rename_i startUp underWay
          split
          · rename_i unsettled
            exact ⟨found, down, startUp, underWay, unsettled⟩
          · exact found
          · exact down
          · rename_i settled
            exact ⟨startUp, underWay, settled⟩

/-- Whoever asks for a child server may have it created and its start queued. -/
theorem ensure_induction {motive : Run → Prop}
    (create : ∀ (run : Run) (language : String) (command : List String),
      run.bridge.current.get? language = none →
      run.bridge.config.commandFor? language = some command →
      motive run → motive (run.setBridge (run.bridge.addServer language command)))
    (launch : ∀ (run : Run) (language : String) (server : Nat),
      run.bridge.current.get? language = some server →
      (run.bridge.link server).server.started = false →
      (run.bridge.link server).server.failed = false → run.startUps.get? language = none →
      motive run → motive (run.queueLaunch language server))
    (before : motive run) (language : String) : motive (run.ensure language).1 := by
  unfold ensure
  split
  · exact before
  · rename_i bridge server isFound
    have current := Bridge.findServer_some isFound
    have found : motive (run.setBridge bridge) := by
      unfold Bridge.findServer at isFound
      split at isFound
      · cases isFound
        exact before
      · rename_i unknown
        split at isFound
        · cases isFound
        · rename_i command configured
          cases isFound
          exact create run language command unknown configured before
    dsimp only
    split
    · exact found
    · rename_i down
      split
      · exact found
      · rename_i untried
        split
        · rename_i first
          exact launch _ language server current (Bool.eq_false_iff.mpr down)
            (Bool.eq_false_iff.mpr untried) first found
        · split <;> exact found

theorem turn_ensure (language : String) (next : Turn task errand (run.ensure language).1 after) :
    Turn task errand run after := by
  refine ensure_induction (motive := fun middle =>
    Turn task errand middle after → Turn task errand run after) ?_ ?_ id language next
  · exact fun _ _ _ unknown configured back later => back (.create unknown configured later)
  · exact fun _ _ _ found down untried first back later =>
      back (.launch found down untried first later)

theorem turn_syncHost (task : Nat) (host : String) (languages : List String) (run : Run) :
    Turn task (.sync host languages) run (syncHost task host languages run) := by
  induction languages generalizing run with
  | nil => exact .move (.publish run) (.ends trivial (.finish _ rfl _))
  | cons language rest ih =>
    have tells := run.ensure_tells language
    refine turn_ensure language ?_
    unfold syncHost
    rcases isEnsured : run.ensure language with ⟨ensured, state⟩
    rw [isEnsured] at tells
    cases state with
    | absent => exact .move (.skip tells) (ih ensured)
    | raised fault =>
      obtain ⟨startUp, known⟩ := tells
      exact .ends (Or.inl ⟨startUp, fault, known⟩) (.finish _ rfl _)
    | starting server =>
      obtain ⟨current, down, startUp, found, unsettled⟩ := tells
      exact .await (.documents host language rest server) current down found unsettled
    | ready server =>
      dsimp only
      split
      · rename_i synced
        exact .move (.sync synced) (ih _)
      · rename_i fault failed
        exact .ends (Or.inr ⟨fault, failed⟩) (.finish _ rfl _)

theorem turn_ensureOnly (run : Run) (task : Nat) (language : String) :
    Turn task .other run (run.ensureOnly task language) := by
  have tells := run.ensure_tells language
  refine turn_ensure language ?_
  unfold ensureOnly
  rcases isEnsured : run.ensure language with ⟨ensured, state⟩
  rw [isEnsured] at tells
  cases state with
  | starting server =>
    obtain ⟨current, down, startUp, found, unsettled⟩ := tells
    exact .await (.start language server) current down found unsettled
  | _ => exact .finish ensured task _

/-! ### Requests -/

section Requests

variable (run : Run) (task : Nat) (context : Context) (recipient : Recipient) (chosen : Option Nat)

theorem ends_deliver (outcome : Outcome) :
    Ends task (.ask [] recipient chosen) run (run.deliver task recipient outcome) := by
  cases recipient with
  | direct => exact .finish run rfl _
  | resolving item => exact .finish run rfl _
  | member parent index => exact .report run parent index outcome

theorem ends_leave (outcome : Outcome) :
    Ends task (.ask [context] recipient chosen) run (run.leave task context recipient outcome) := by
  refine .drop ?_ ?_ (ends_deliver _ task recipient chosen outcome) <;> rfl

theorem turn_leave (outcome : Outcome) :
    Turn task (.ask [context] recipient chosen) run (run.leave task context recipient outcome) :=
  .ends trivial (ends_leave run task context recipient chosen outcome)

theorem turn_conclude (attempt : Attempt Unit Answer) :
    Turn task (.ask [context] recipient chosen) run
      (run.conclude task context recipient attempt) := by
  unfold conclude
  split
  · exact .hold run _ (.answer context recipient chosen)
  · exact turn_leave run task context recipient chosen _
  · split
    · exact turn_leave run task context recipient chosen _
    · rename_i completed
      obtain ⟨left, memory⟩ := Router.complete_discards completed
      exact .ends trivial (.drop left memory (ends_deliver _ task recipient chosen _))

theorem turn_ask {server : Nat}
    (known : run.bridge.current.get? context.language = some server ∨ chosen = some server) :
    Turn task (.ask [context] recipient chosen) run (run.ask task context server recipient) :=
  .move (.request known) (turn_conclude _ task context recipient chosen _)

theorem turn_send :
    Turn task (.ask [context] recipient chosen) run (run.send task context recipient) := by
  have tells := run.ensure_tells context.language
  refine turn_ensure context.language ?_
  unfold send
  rcases isEnsured : run.ensure context.language with ⟨ensured, state⟩
  rw [isEnsured] at tells
  cases state with
  | ready server => exact turn_ask ensured task context recipient chosen (Or.inl tells)
  | absent => exact turn_leave ensured task context recipient chosen _
  | raised fault => exact turn_leave ensured task context recipient chosen _
  | starting server =>
    obtain ⟨current, down, startUp, found, unsettled⟩ := tells
    exact .await (.request context recipient chosen server) current down found unsettled

theorem turn_resumeSend (server : Nat) (outcome : Except Fault Bool) :
    Turn task (.ask [context] recipient (some server)) run
      (run.resumeSend task context server recipient outcome) := by
  unfold resumeSend
  split
  · exact turn_leave run task context recipient _ _
  · exact turn_leave run task context recipient _ _
  · exact turn_ask run task context recipient _ (Or.inr rfl)

end Requests

/-! ### Groups -/

theorem turn_fanOut (run : Run) (task : Nat) (method : Method) (contexts : List Context) :
    Turn task (.ask contexts .direct none) run (run.fanOut task method contexts) := by
  refine .split trivial (fun _ _ => ⟨rfl, rfl⟩) ?_ fun _ _ _ isSearched => by cases isSearched
  change _ = contexts
  apply List.ext_getElem
  · simp [Job.context?]
  · intro index _ within
    simp [Job.context?, within]

theorem turn_search (run : Run) (task : Nat) (query : Value) :
    Turn task .search run (run.search task query) := by
  have ended (outcome : Outcome) : Turn task .search run (run.finish task outcome) :=
    .ends trivial (.finish run rfl outcome)
  unfold search
  dsimp only
  split
  · split
    · exact ended _
    · refine .split trivial (fun _ _ => ⟨rfl, rfl⟩) (by simp [Job.context?, Errand.requests]) ?_
      rintro index within server ⟨⟩
      rw [List.getD_eq_getElem?_getD, List.getElem?_eq_getElem within]
      exact ⟨rfl, List.mem_map_of_mem (List.mem_filter.mp (List.getElem_mem within)).1⟩
  · exact ended _

section Query

variable (run : Run) (task parent index : Nat) (chosen : Option Nat)

theorem turn_concludeSearch (attempt : Attempt Unit Answer) :
    Turn task (.ask [] (.member parent index) chosen) run
      (run.concludeSearch task parent index attempt) := by
  cases attempt with
  | blocked key stage => exact .hold run key (.found parent index chosen)
  | done outcome => exact .ends trivial (ends_deliver run task (.member parent index) chosen _)

theorem turn_askSearch (server : Nat) (query : String) :
    Turn task (.ask [] (.member parent index) (some server)) run
      (run.askSearch task server query parent index) :=
  .move (.query run server _) (turn_concludeSearch _ task parent index _ _)

end Query

section Logs

variable {motive : Run → Prop}
  (logged : ∀ run severity text, motive run → motive (run.log severity text))
include logged

theorem logFailure_induction {run : Run} (method language : String) (outcome : Outcome)
    (before : motive run) : motive (logFailure method language run outcome) := by
  cases outcome with
  | ok response => exact before
  | error fault => exact logged run _ _ before

theorem logFailures_induction {run : Run} (method : String) (outcomes : List (String × Outcome))
    (before : motive run) : motive (logFailures method run outcomes) := by
  induction outcomes generalizing run with
  | nil => exact before
  | cons entry rest ih => exact ih (logFailure_induction logged method entry.1 entry.2 before)

theorem collectSymbols_induction (store : Store) (outcomes : List (String × Outcome)) {run : Run}
    (before : motive run) : motive (collectSymbols store outcomes run).1 := by
  fun_induction collectSymbols store outcomes run with
  | case1 => exact before
  | case2 => exact before
  | case3 language rest run answer found _ collected others isCollected ih =>
    rw [isCollected] at ih
    exact ih before
  | case4 language outcome rest run _ ih => exact ih (logFailure_induction logged _ _ _ before)

end Logs

theorem turn_gathered (run : Run) (task : Nat) :
    run.gathered task = run ∨ Turn task .other run (run.gathered task) := by
  unfold gathered
  split
  · exact Or.inl rfl
  · right
    let closed : Run := { run with groups := run.groups.erase task }
    have logged (after middle : Run) (severity : Severity) (text : String)
        (back : Turn task .other middle after → Turn task .other closed after) :
        Turn task .other (middle.log severity text) after → Turn task .other closed after :=
      fun later => back (.move (.log middle severity text) later)
    dsimp only
    refine .move (.close run) ?_
    split
    · exact .finish _ task _
    · split
      · exact logFailures_induction (logged _) _ _ id (.finish _ task _)
      · exact collectSymbols_induction (logged _) _ _ id (.finish _ task _)

/-! ### Messages -/

theorem turn_serve {server : Nat} {attempted : Link × ChildAttempt}
    (move : Move task .other run .other
      (run.setBridge (run.bridge.setLink server attempted.1)))
    (serves : attempted.2.Serves) : Turn task .other run (run.serve task server attempted) := by
  refine .move move ?_
  unfold serve
  dsimp only
  split
  · rename_i key stage blocked
    exact .hold _ key (.served server (serves key stage blocked))
  · exact .finish _ task _

/-! ### Blocked tasks -/

theorem ends_abandon (run : Run) (task : Nat) (activity : Activity) :
    Ends task (activity.errand .cancelled) run (run.abandon task activity) := by
  cases activity with
  | requesting context server recipient => exact ends_leave run task context recipient _ _
  | answering context recipient => exact ends_leave run task context recipient _ _
  | querying parent index => exact ends_deliver run task (.member parent index) _ _
  | _ => exact .finish run rfl _

theorem turn_resumeSync (run : Run) (task : Nat) (host language : String) (rest : List String)
    (outcome : Except Fault Bool) :
    Turn task ((Activity.syncing host language rest).errand (.started outcome)) run
      (run.resumeSync task host language rest outcome) := by
  cases outcome with
  | error fault => exact .finish run task _
  | ok up =>
    cases up with
    | false => exact turn_syncHost task host rest run
    | true =>
      unfold resumeSync
      dsimp only
      split
      · rename_i synced
        exact .move (.sync synced) (turn_syncHost task host rest _)
      · rename_i fault failed
        exact .ends (Or.inr ⟨fault, failed⟩) (.finish run rfl _)

theorem turn_resume {activity : Activity} (ordinary : activity.Ordinary)
    (other : activity.launched? = none) {signal : Signal} (live : signal ≠ .cancelled) :
    (Turn task (activity.errand signal) run (run.resume task activity signal) ∧
        (activity.awaited? = none ∨ ∃ outcome, signal = .started outcome)) ∨
      (run.resume task activity signal = run ∧
        (activity.awaited? = none ∨ ∀ outcome, signal ≠ .started outcome)) := by
  unfold resume
  split
  · contradiction
  · exact Or.inl ⟨run.turn_resumeSync task _ _ _ _, Or.inr ⟨_, rfl⟩⟩
  · exact Or.inl ⟨.finish run task _, Or.inr ⟨_, rfl⟩⟩
  · exact Or.inl ⟨.finish run task _, Or.inr ⟨_, rfl⟩⟩
  · exact Or.inl ⟨run.turn_resumeSend task _ _ _ _, Or.inr ⟨_, rfl⟩⟩
  · exact Or.inl ⟨run.turn_conclude task _ _ _ _, Or.inl rfl⟩
  · exact Or.inl ⟨run.turn_concludeSearch task _ _ _ _, Or.inl rfl⟩
  · contradiction
  · contradiction
  · rename_i reply server served
    have resumed := Link.resume_serving ordinary (run.bridge.link server) reply
    exact Or.inl ⟨turn_serve (.serve run server ordinary reply) resumed.2, Or.inl rfl⟩
  · rcases run.turn_gathered task with same | turn
    · exact Or.inr ⟨same, Or.inl rfl⟩
    · exact Or.inl ⟨turn, Or.inl rfl⟩
  · rename_i notSyncing notEnsuringFault notEnsuring notRequesting _ _ _ _ _ _
    refine Or.inr ⟨rfl, ?_⟩
    cases signal with
    | started outcome =>
      left
      cases activity with
      | syncing host language rest => exact absurd rfl (notSyncing outcome host language rest rfl)
      | ensuring language =>
        cases outcome with
        | error fault => exact absurd rfl (notEnsuringFault fault language rfl)
        | ok up => exact absurd rfl (notEnsuring up language rfl)
      | requesting context server recipient =>
        exact absurd rfl (notRequesting outcome context server recipient rfl)
      | _ => rfl
    | _ => exact Or.inr nofun

/-! ### Starts -/

/-- What becomes of a start that has got this far: it waits again, or it ends. A server that is up
gets its documents first. -/
inductive Launched (run : Run) (task : Nat) (language : String) (server : Nat)
    (launched : Link × Attempt LaunchStage Bool) : Run → Prop where
  | waits {key : Option String} {stage : LaunchStage} (blocked : launched.2 = .blocked key stage) :
      Launched run task language server launched
        ((run.setBridge (run.bridge.setLink server launched.1)).hold task key
          (.launching language server stage))
  | settles {outcome : Except Fault Bool} (ended : launched.2 = .done outcome)
      (short : outcome ≠ .ok true) :
      Launched run task language server launched
        ((run.setBridge (run.bridge.setLink server launched.1)).settle task language outcome)
  | synced {bridge : Bridge} {result : Except Fault Unit} (ended : launched.2 = .done (.ok true))
      (synced : Bridge.syncAll server
        ((run.bridge.setLink server launched.1).documentsIn launched.1.server.language)
        (run.bridge.setLink server launched.1) = (bridge, result)) :
      Launched run task language server launched
        ((run.setBridge bridge).settle task language (result.map fun _ => true))

theorem launched_afterLaunch (run : Run) (task : Nat) (language : String) (server : Nat)
    (launched : Link × Attempt LaunchStage Bool) :
    Launched run task language server launched (run.afterLaunch task language server launched) := by
  unfold afterLaunch
  dsimp only
  split
  · rename_i blocked
    exact .waits blocked
  · rename_i ended
    split
    · rename_i synced
      exact .synced ended synced
    · rename_i synced
      exact .synced ended synced
  · rename_i notUp ended
    exact .settles ended notUp

/-! ### Jobs -/

/-- A group may learn something, but it has the members that it has. -/
def Notes (parent : Nat) (before after : Run) : Prop :=
  after = before ∨ ∃ earlier group, before.groups.get? parent = some earlier ∧
    group.members = earlier.members ∧ group.cancelled = earlier.cancelled ∧
    after = { before with groups := before.groups.put parent group }

/-- What a job can come to. -/
inductive Worked (run : Run) : Job → Run → Prop where
  | begun {job : Job} {parent task : Nat} {after : Run} (joins : job.Joins parent task)
      (turn : Turn task job.errand run after) : Worked run job after
  | withheld {job : Job} {parent task index : Nat} {after : Run} (joins : job.Joins parent task)
      (cancelled : (run.groups.get? parent).any Group.cancelled = true)
      (ends : Ends task (.ask [] (.member parent index) none) run after) : Worked run job after
  | launch {task : Nat} {language : String} {server : Nat} {after : Run}
      (launched : Launched (run.setBridge { run.bridge with
          speakers := run.bridge.speakers.put (run.bridge.link server).server.language server })
        task language server ((run.bridge.link server).start run.bridge.root) after) :
      Worked run (.launch task language server) after
  | relaunched {task : Nat} {language : String} {server : Nat} {stage : LaunchStage} {reply : Reply}
      {after : Run} (held : run.tasks.get? task = some (.launching language server stage))
      (launched : Launched run task language server
        ((run.bridge.link server).resumeStart stage reply) after) :
      Worked run (.resume task (.reply reply)) after
  | resumed {task : Nat} {activity : Activity} {signal : Signal} {after : Run}
      (held : run.tasks.get? task = some activity) (other : activity.launched? = none)
      (meant : activity.awaited? = none ∨ ∃ outcome, signal = .started outcome)
      (turn : Turn task (activity.errand signal) run after) : Worked run (.resume task signal) after
  | abandoned {task : Nat} {activity : Activity} {after : Run}
      (held : run.tasks.get? task = some activity)
      (ends : Ends task (activity.errand .cancelled) run after) :
      Worked run (.resume task .cancelled) after
  | ignored {task : Nat} {signal : Signal}
      (idle : ∀ activity, run.tasks.get? task = some activity → signal ≠ .cancelled ∧
        (activity.awaited? = none ∨ ∀ outcome, signal ≠ .started outcome)) :
      Worked run (.resume task signal) run
  /-- Somebody stops child servers. -/
  | stopped {task : Nat} {activity : Activity} {signal : Signal}
      (held : run.tasks.get? task = some activity) (stops : ¬ activity.Ordinary) :
      Worked run (.resume task signal) (run.resume task activity signal)
  | forgotten (language : String) :
      Worked run (.forget language) { run with startUps := run.startUps.erase language }
  | relayed (task : Nat) (outcome : Except Fault Bool) :
      Worked run (.relay task outcome) (run.enqueue [.resume task (.started outcome)])
  | noted {parent index : Nat} {outcome : Outcome} {after : Run} (notes : run.Notes parent after) :
      Worked run (.report parent index outcome) after
  | woken {parent index : Nat} {outcome : Outcome} {middle : Run} (notes : run.Notes parent middle) :
      Worked run (.report parent index outcome) (middle.enqueue [.resume parent .gathered])

theorem worked_join {job : Job} {parent index : Nat} {begun : Run} (joins : job.Joins parent task)
    (turn : Turn task job.errand run begun) : Worked run job (run.join task parent index begun) := by
  unfold join
  split
  · rename_i cancelled
    exact .withheld joins cancelled (ends_deliver run task (.member parent index) none _)
  · exact .begun joins turn

theorem worked_report (run : Run) (parent index : Nat) (outcome : Outcome) :
    Worked run (.report parent index outcome) (run.report parent index outcome) := by
  unfold report
  split
  · exact .noted (Or.inl rfl)
  · rename_i group known
    have notes : run.Notes parent { run with
        groups := run.groups.put parent { group with
          outcomes := group.outcomes.set index (some outcome) } } :=
      Or.inr ⟨group, { group with outcomes := group.outcomes.set index (some outcome) }, known, rfl,
        rfl, rfl⟩
    dsimp only
    split
    · exact .woken notes
    · exact .noted notes

theorem worked_resume {activity : Activity} (held : run.tasks.get? task = some activity)
    (signal : Signal) : Worked run (.resume task signal) (run.resume task activity signal) := by
  by_cases ordinary : activity.Ordinary
  · by_cases cancelled : signal = .cancelled
    · subst cancelled
      exact .abandoned held (run.ends_abandon task activity)
    · have rested : run.resume task activity signal = run ∧
          (activity.awaited? = none ∨ ∀ outcome, signal ≠ .started outcome) →
          Worked run (.resume task signal) (run.resume task activity signal) := by
        rintro ⟨same, unmet⟩
        rw [same]
        refine .ignored fun other isHeld => ?_
        cases held.symm.trans isHeld
        exact ⟨cancelled, unmet⟩
      cases starts : activity.launched? with
      | none =>
        rcases turn_resume ordinary starts cancelled with ⟨turn, meant⟩ | same
        · exact .resumed held starts meant turn
        · exact rested same
      | some language =>
        cases activity with
        | launching language server stage =>
          cases signal with
          | reply reply => exact .relaunched held (launched_afterLaunch run task language server _)
          | cancelled => contradiction
          | started outcome => exact rested ⟨rfl, Or.inl rfl⟩
          | gathered => exact rested ⟨rfl, Or.inl rfl⟩
        | _ => contradiction
  · exact .stopped held ordinary

theorem worked_perform (run : Run) (job : Job) : Worked run job (run.perform job) := by
  cases job with
  | launch task language server => exact .launch (launched_afterLaunch _ task language server _)
  | send task context parent index =>
    exact worked_join ⟨rfl, rfl⟩ (run.turn_send task context _ none)
  | search task server query parent index =>
    exact worked_join ⟨rfl, rfl⟩ (run.turn_askSearch task parent index server query)
  | resume task signal =>
    unfold perform
    dsimp only
    split
    · rename_i activity held
      exact worked_resume held signal
    · rename_i absent
      refine .ignored fun activity held => ?_
      rw [absent] at held
      contradiction
  | forget language => exact .forgotten language
  | relay task outcome => exact .relayed task outcome
  | report parent index outcome => exact run.worked_report parent index outcome

end Run

end LanguageBridge
