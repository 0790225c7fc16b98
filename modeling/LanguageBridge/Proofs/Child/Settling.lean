import LanguageBridge.Proofs.Child.Lifetimes

namespace LanguageBridge

/-! A start comes to an end once the child server has answered, whatever else is asked of it meanwhile:
the server is up, or it has failed and its client is gone. There is one way between the two: a client
that has its process but cannot be told the root stays, and the server has neither come up nor failed. -/

/-! ### Answers -/

/-- A reply from one who succeeds, or from one who fails; a reply that is held back says neither. -/
def Reply.Fits (succeeds : Bool) : Reply → Prop
  | .result _ => succeeds = true
  | .failure _ => succeeds = false
  | .hold _ => True

def Reply.isGiven : Reply → Bool
  | .hold _ => false
  | _ => true

/-- What a start waits for at a stage. -/
def LaunchStage.call : LaunchStage → Call
  | .spawn _ => .spawn
  | .handshake => .handshake
  | .giveUp .shutdown => .shutdown
  | .giveUp .stop => .stop

/-- How many answers it takes at most to get to the end. -/
def HaltStage.due : HaltStage → Nat
  | .shutdown => 2
  | .stop => 1

def LaunchStage.due : LaunchStage → Nat
  | .spawn _ => 4
  | .handshake => 3
  | .giveUp stage => stage.due

theorem LaunchStage.due_bounds (stage : LaunchStage) : 0 < stage.due ∧ stage.due ≤ 4 := by
  cases stage with
  | giveUp reached => cases reached <;> decide
  | _ => simp [due]

theorem WorkspaceRoot.isSome_lead? (path : String) :
    (lead? path).isSome = true ↔ path.toList.head? = some '/' := by
  unfold lead?
  cases path.toList with
  | nil => simp
  | cons first rest =>
    by_cases slash : first = '/'
    · subst slash
      split <;> simp_all
    · simp [slash]

namespace Link

variable {spawns answers : Bool} {root : Option String} {link : Link} {stage : LaunchStage}
  {reply : Reply}

theorem take_reply_congr {other : Link} {call : Call}
    (named : other.server.language = link.server.language)
    (same : other.wire.replies.get? (.child link.server.language, call) =
      link.wire.replies.get? (.child link.server.language, call)) :
    (other.take call).1 = (link.take call).1 := by
  simp only [take, Wire.take, named, same]
  split <;> rfl

theorem take_take_reply (link : Link) {first second : Call} (different : second ≠ first) :
    ((link.take first).2.take second).1 = (link.take second).1 := by
  refine take_reply_congr rfl ?_
  simp only [take, Wire.take]
  split
  · rw [Table.get?_put, if_neg (by simpa using different)]
  · rfl

/-! ### The end of a start -/

/-- A path that does not start at the root of the file system. -/
def isRelative (root : Option String) : Bool :=
  root.any fun path => path ≠ "" && path.toList.head? ≠ some '/'

/-- What a start comes to, by whether the process can be spawned and answers the handshake. -/
def verdict (spawns answers : Bool) (root : Option String) : Except Fault Bool :=
  if spawns = false then .ok false
  else if isRelative root then .error .relativeRoot
  else .ok answers

theorem rootUri?_cases (root : Option String) :
    (isRelative root = true ∧ rootUri? root = .error .relativeRoot) ∨
      (isRelative root = false ∧ RootKnown root) := by
  cases root with
  | none => exact Or.inr ⟨rfl, none, rfl⟩
  | some path =>
    by_cases given : path = ""
    · exact Or.inr ⟨by simp [isRelative, given], none, by simp [rootUri?, given]⟩
    · have absolute := WorkspaceRoot.isSome_lead? path
      simp only [isRelative, RootKnown, rootUri?, WorkspaceRoot.uri, given, Option.any_some, if_false]
      cases lead : WorkspaceRoot.lead? path with
      | none =>
        rw [lead] at absolute
        exact Or.inl ⟨by simpa [given] using absolute, rfl⟩
      | some start =>
        rw [lead] at absolute
        exact Or.inr ⟨by simpa using fun _ => absolute, _, rfl⟩

/-- How a server stands when a start has ended. -/
def Settled (link : Link) : Except Fault Bool → Prop
  | .ok true => link.server.started = true ∧ link.server.failed = false ∧
      link.server.client.isSome = true
  | .ok false => link.server.started = false ∧ link.server.failed = true ∧
      link.server.client = none
  | .error _ => link.server.started = false ∧ link.server.failed = false ∧
      link.server.client.isSome = true

/-- A server that has a client and no mark. -/
structure Undecided (link : Link) : Prop where
  down : link.server.started = false
  unfailed : link.server.failed = false
  client : link.server.client.isSome = true

/-- What a start has learnt when it waits at a stage. -/
def Learnt (spawns answers : Bool) (root : Option String) : LaunchStage → Prop
  | .spawn told => told = root
  | .handshake => spawns = true ∧ isRelative root = false
  | .giveUp _ => spawns = true ∧ isRelative root = false ∧ answers = false

/-- A start waits with an undecided server, or it has ended as it should. -/
def Comes (spawns answers : Bool) (root : Option String) (result : Link × Attempt LaunchStage Bool) :
    Prop :=
  match result.2 with
  | .blocked _ stage => result.1.Undecided ∧ Learnt spawns answers root stage
  | .done outcome => outcome = verdict spawns answers root ∧ result.1.Settled outcome

/-- The reply that a start goes on with, and the next one if it asks for that at once. -/
def Heeds (spawns answers : Bool) (link : Link) : Call → Reply → Prop
  | .spawn, reply => reply.Fits spawns ∧
      (spawns = true → reply.isGiven = true → (link.take .handshake).1.Fits answers)
  | .handshake, reply => reply.Fits answers
  | _, _ => True

section Comes

variable (undecided : link.Undecided)
include undecided

theorem afterGiveUp_comes {halted : Link × Attempt HaltStage Unit} (halts : link.Halts halted)
    (known : isRelative root = false) : Comes true false root (afterGiveUp halted) := by
  obtain ⟨reached, attempt⟩ := halted
  have marks := halts.marks
  simp only [Link.marks, Prod.mk.injEq] at marks
  obtain ⟨-, started, failed⟩ := marks
  cases attempt with
  | done outcome =>
    refine ⟨by simp [verdict, known], ?_⟩
    exact ⟨started.trans undecided.down, rfl, (halts.ends outcome rfl).2⟩
  | blocked key stage =>
    have client : reached.server.client = link.server.client := halts.waits key stage rfl
    refine ⟨⟨started.trans undecided.down, failed.trans undecided.unfailed, ?_⟩, rfl, known, rfl⟩
    exact (congrArg Option.isSome client).trans undecided.client

theorem giveUp_comes (known : isRelative root = false) (reason : String) :
    Comes true false root (link.giveUp reason) :=
  afterGiveUp_comes undecided (.preceded (.log trivial) rfl rfl (.halt _)) known

theorem greet_comes (known : isRelative root = false) : Comes true true root link.greet := by
  obtain ⟨client, held⟩ := Option.isSome_iff_exists.mp undecided.client
  have isVerdict : .ok true = verdict true true root := by simp [verdict, known]
  simp only [greet, held]
  split <;> exact ⟨isVerdict, rfl, undecided.unfailed, undecided.client⟩

theorem afterHandshake_comes (known : isRelative root = false) (fits : reply.Fits answers) :
    Comes true answers root (link.afterHandshake reply) := by
  cases reply with
  | hold key => exact ⟨undecided, rfl, known⟩
  | failure reason =>
    cases fits
    exact giveUp_comes undecided known reason
  | result answer =>
    cases fits
    exact greet_comes undecided known

theorem handshake_comes (fits : (link.take .handshake).1.Fits answers) :
    Comes true answers root (link.handshake root) := by
  rcases rootUri?_cases root with ⟨relative, untold⟩ | ⟨known, uri, told⟩
  -- the root is turned into an address before the client is asked, and nobody lets the client go
  · simp only [handshake, untold]
    refine ⟨by simp [verdict, relative], undecided.down, undecided.unfailed, undecided.client⟩
  · obtain ⟨client, held⟩ := Option.isSome_iff_exists.mp undecided.client
    have same (message : ChildMessage) :
        ((link.emit client message).take .handshake).1 = (link.take .handshake).1 :=
      take_reply_congr rfl rfl
    simp only [handshake, told, held]
    refine afterHandshake_comes ⟨undecided.down, undecided.unfailed, undecided.client⟩ known ?_
    rwa [same]

theorem afterSpawn_comes (heeds : link.Heeds spawns answers .spawn reply) :
    Comes spawns answers root (link.afterSpawn root reply) := by
  cases reply with
  | hold key => exact ⟨undecided, rfl⟩
  | failure reason =>
    cases heeds.1
    exact ⟨rfl, undecided.down, rfl, rfl⟩
  | result answer =>
    cases heeds.1
    exact handshake_comes undecided (heeds.2 rfl rfl)

theorem resumeStart_comes (learnt : Learnt spawns answers root stage)
    (heeds : link.Heeds spawns answers stage.call reply) :
    Comes spawns answers root (link.resumeStart stage reply) := by
  cases stage with
  | spawn told =>
    cases learnt
    exact afterSpawn_comes undecided heeds
  | handshake =>
    obtain ⟨rfl, known⟩ := learnt
    exact afterHandshake_comes undecided known heeds
  | giveUp stage =>
    obtain ⟨rfl, known, rfl⟩ := learnt
    exact afterGiveUp_comes undecided (.resumeHalt link stage reply) known

end Comes

theorem start_comes (down : link.server.started = false) (unfailed : link.server.failed = false)
    (heeds : link.Heeds spawns answers .spawn (link.take .spawn).1) (root : Option String) :
    Comes spawns answers root (link.start root) := by
  let asking := link.newClient.emit link.wire.clients (.spawn link.server.command)
  -- neither the new client nor the reply to the spawn changes what the handshake will be told
  have spawn : (asking.take .spawn).1 = (link.take .spawn).1 := take_reply_congr rfl rfl
  have handshake : ((asking.take .spawn).2.take .handshake).1 = (link.take .handshake).1 :=
    (asking.take_take_reply (by decide)).trans (take_reply_congr rfl rfl)
  simp only [start, down, Bool.false_eq_true, if_false]
  refine afterSpawn_comes ⟨down, unfailed, rfl⟩ ?_
  rw [Heeds, handshake, spawn]
  exact heeds

/-! ### Answers that are still due -/

def DueBelow (bound : Nat) (attempt : Attempt LaunchStage Bool) : Prop :=
  ∀ key stage, attempt = .blocked key stage → stage.due < bound

theorem afterGiveUp_blocked {halted : Link × Attempt HaltStage Unit} {key : Option String}
    (waits : (afterGiveUp halted).2 = .blocked key stage) :
    ∃ reached, stage = .giveUp reached ∧ halted.2 = .blocked key reached := by
  obtain ⟨link, attempt⟩ := halted
  cases attempt with
  | done outcome => cases waits
  | blocked held reached =>
    cases waits
    exact ⟨reached, rfl, rfl⟩

theorem afterGiveUp_due (halted : Link × Attempt HaltStage Unit) : DueBelow 3 (afterGiveUp halted).2 := by
  intro key stage waits
  obtain ⟨reached, rfl, -⟩ := afterGiveUp_blocked waits
  cases reached <;> decide

theorem afterHandshake_due (link : Link) (given : reply.isGiven = true) :
    DueBelow 3 (link.afterHandshake reply).2 := by
  cases reply with
  | hold key => contradiction
  | failure reason => exact afterGiveUp_due _
  | result answer =>
    intro key stage waits
    simp only [afterHandshake, greet] at waits
    split at waits <;> cases waits

theorem handshake_due (link : Link) (root : Option String) : DueBelow 4 (link.handshake root).2 := by
  intro key stage waits
  simp only [handshake] at waits
  split at waits
  · cases waits
  · split at waits
    · exact Nat.lt_succ_of_lt (afterGiveUp_due _ key stage waits)
    · generalize ((link.emit _ _).take .handshake) = asked at waits
      cases isGiven : asked.1.isGiven with
      | true => exact Nat.lt_succ_of_lt (afterHandshake_due asked.2 isGiven key stage waits)
      | false =>
        obtain ⟨reply, asked⟩ := asked
        cases reply with
        | hold held =>
          cases waits
          decide
        | _ => contradiction

theorem stopClient_due (link : Link) {key : Option String} {stage : HaltStage}
    (waits : link.stopClient.2 = .blocked key stage) : stage.due < HaltStage.shutdown.due := by
  simp only [stopClient] at waits
  split at waits
  · cases waits
  · simp only [afterStop] at waits
    split at waits <;> cases waits
    decide

theorem resumeHalt_due (link : Link) (stage : HaltStage) (given : reply.isGiven = true)
    {key : Option String} {next : HaltStage}
    (waits : (link.resumeHalt stage reply).2 = .blocked key next) : next.due < stage.due := by
  cases stage with
  | shutdown =>
    cases reply with
    | hold key => contradiction
    | failure reason => exact stopClient_due link waits
    | result answer =>
      simp only [resumeHalt, afterShutdown] at waits
      split at waits <;> exact stopClient_due _ waits
  | stop =>
    cases reply with
    | hold key => contradiction
    | _ => cases waits

/-- Every answer brings a start nearer to its end. -/
theorem resumeStart_due (link : Link) (stage : LaunchStage) (given : reply.isGiven = true) :
    DueBelow stage.due (link.resumeStart stage reply).2 := by
  cases stage with
  | spawn root =>
    cases reply with
    | hold key => contradiction
    | failure reason =>
      intro key stage waits
      cases waits
    | result answer => exact handshake_due link root
  | handshake => exact afterHandshake_due link given
  | giveUp stage =>
    intro key next waits
    obtain ⟨reached, rfl, halting⟩ := afterGiveUp_blocked waits
    exact resumeHalt_due link stage given halting

theorem resumeStart_held (link : Link) (stage : LaunchStage) (held : reply.isGiven = false) :
    DueBelow (stage.due + 1) (link.resumeStart stage reply).2 := by
  intro key next waits
  cases reply with
  | hold given =>
    rcases stage with _ | _ | (_ | _) <;> cases waits <;> exact Nat.lt_succ_self _
  | _ => contradiction

/-! ### What other commands leave alone -/

theorem Undecided.of_standing {after : Link} (undecided : link.Undecided)
    (same : after.server.standing = link.server.standing) : after.Undecided where
  down := (congrArg Standing.started same).trans undecided.down
  unfailed := (congrArg Standing.failed same).trans undecided.unfailed
  client := (congrArg (fun standing => standing.client.isSome) same).trans undecided.client

theorem Settled.of_standing {after : Link} {outcome : Except Fault Bool} (settled : link.Settled outcome)
    (same : after.server.standing = link.server.standing) : after.Settled outcome := by
  rw [ChildServer.standing, ChildServer.standing, Standing.mk.injEq] at same
  obtain ⟨-, client, started, failed⟩ := same
  unfold Settled
  rw [client, started, failed]
  exact settled

end Link

/-- Commands by which a child server is neither started nor stopped. -/
def ChildCommand.Serves : ChildCommand → Prop
  | .start _ | .stop => False
  | _ => True

namespace ChildSession

variable {session : ChildSession} {task : Nat} {spawns answers : Bool} {root : Option String}

theorem perform_serves (session : ChildSession) {command : ChildCommand} (serves : command.Serves) :
    (session.perform command).1.server.standing = session.link.server.standing ∧
      (session.perform command).2.Serves := by
  cases command with
  | start root => contradiction
  | stop => contradiction
  | updateSettings settings =>
    exact ⟨(Link.Unmoved.updateSettings _ settings).standing, by simp [perform, Attempt.Serves]⟩
  | syncDocument aliasUri text version =>
    simp only [perform]
    split
    · exact ⟨rfl, by simp [Attempt.Serves]⟩
    · exact ⟨(Link.Unmoved.syncDocument _ aliasUri text version).standing, by simp [Attempt.Serves]⟩
  | closeDocument aliasUri =>
    exact ⟨(Link.Unmoved.closeDocument _ aliasUri).standing, by simp [perform, Attempt.Serves]⟩
  | request method params =>
    refine ⟨(Link.Unmoved.request _ method params).standing, Attempt.widen_serves ?_ _⟩
    exact fun _ => trivial
  | receive language message =>
    simp only [perform]
    split
    · exact ⟨congrArg ChildServer.standing (session.receive_aside message).server,
        session.receive_serves message⟩
    · exact ⟨rfl, by simp [Attempt.Serves]⟩
  | configuration params =>
    exact ⟨(Link.Unmoved.receive session.link (.configuration params)).standing,
      Link.receive_serves session.link (.configuration params)⟩

/-- Nobody else waits to start or stop the server. -/
def Free (task : Nat) (session : ChildSession) : Prop :=
  ∀ other stage, other ≠ task → session.waiting.get? other = some stage → stage.Serves

/-- What has nothing to do with a task, and neither starts nor stops the server. -/
structure Passes (task : Nat) (before after : ChildSession) : Prop where
  standing : after.link.server.standing = before.link.server.standing
  waiting : after.waiting.get? task = before.waiting.get? task
  finished : after.finished.get? task = before.finished.get? task
  free : before.Free task → after.Free task

theorem Passes.settle {other : Nat} {attempted : Link × ChildAttempt} (different : other ≠ task)
    (standing : attempted.1.server.standing = session.link.server.standing)
    (serves : attempted.2.Serves) :
    Passes task session (session.settle other attempted) := by
  obtain ⟨link, attempt⟩ := attempted
  cases attempt with
  | done outcome =>
    refine ⟨standing, ?_, ?_, ?_⟩
    · simp only [ChildSession.settle, Table.get?_erase, if_neg different.symm]
    · simp only [ChildSession.settle, Table.get?_put, if_neg different.symm]
    · exact fun free third stage apart waits => free third stage apart (Table.of_get?_erase waits).2
  | blocked key reached =>
    refine ⟨standing, ?_, rfl, ?_⟩
    · simp only [ChildSession.settle, Table.get?_put, if_neg different.symm]
    · intro free third stage apart waits
      rcases Table.of_get?_put waits with ⟨rfl, rfl⟩ | ⟨_, old⟩
      · exact serves key _ rfl
      · exact free third stage apart old

/-! ### A start among other events -/

/-- Events in which nobody else starts or stops the server or gives the task up, and in which the task
gets the replies of a child server that spawns and answers, or does not. -/
def Attends (spawns answers : Bool) (task : Nat) (session : ChildSession) : ChildEvent → Prop
  | .submit other command => other ≠ task ∧ command.Serves
  | .cancel other => other ≠ task
  | .release key reply => session.held.get? key = some task → ∀ stage,
      session.waiting.get? task = some (.start stage) →
        session.link.Heeds spawns answers stage.call reply
  | .prepare _ _ _ => True

/-- An event passes a task by, or it gives it the reply that it waits for. -/
theorem act_cases (free : session.Free task) {event : ChildEvent}
    (attends : session.Attends spawns answers task event) :
    Passes task session (session.act event) ∨
      ∃ key reply stage, event = .release key reply ∧ session.held.get? key = some task ∧
        session.waiting.get? task = some stage ∧
        session.act event = settle { session with held := session.held.erase key } task
          (stage.resume session.link reply) := by
  cases event with
  | submit other command =>
    obtain ⟨standing, serves⟩ := session.perform_serves attends.2
    exact Or.inl (.settle attends.1 standing serves)
  | cancel other =>
    refine Or.inl ?_
    simp only [act, cancel]
    split
    · refine ⟨rfl, ?_, ?_, ?_⟩
      · simp only [Table.get?_erase, if_neg (Ne.symm attends)]
      · simp only [Table.get?_put, if_neg (Ne.symm attends)]
      · exact fun free third stage apart waits =>
          free third stage apart (Table.of_get?_erase waits).2
    · exact ⟨rfl, rfl, rfl, id⟩
  | release key reply =>
    simp only [act, release]
    split
    · exact Or.inl ⟨rfl, rfl, rfl, id⟩
    · rename_i other holds
      split
      · exact Or.inl ⟨rfl, rfl, rfl, id⟩
      · rename_i stage waits
        -- a key may be held for any task; the others are neither starts nor stops
        by_cases mine : other = task
        · subst mine
          exact Or.inr ⟨key, reply, stage, rfl, holds, waits, rfl⟩
        · have serves := free other stage mine waits
          have passes : Passes task { session with held := session.held.erase key } _ :=
            .settle mine (Link.Unmoved.resume serves session.link reply).standing
              (Link.resume_serving serves session.link reply).2
          exact Or.inl ⟨passes.standing, passes.waiting, passes.finished, passes.free⟩
  | prepare peer call replies => exact Or.inl ⟨rfl, rfl, rfl, id⟩

/-- A start that waits, or that has ended. -/
inductive Stands (spawns answers : Bool) (root : Option String) (task : Nat) (session : ChildSession) :
    Prop where
  | waiting {stage : LaunchStage} (waits : session.waiting.get? task = some (.start stage))
      (unfinished : session.finished.get? task = none) (undecided : session.link.Undecided)
      (learnt : Link.Learnt spawns answers root stage) : Stands spawns answers root task session
  | ended (idle : session.waiting.get? task = none)
      (finished : session.finished.get? task =
        some ((Link.verdict spawns answers root).map Response.truth))
      (settled : session.link.Settled (Link.verdict spawns answers root)) :
      Stands spawns answers root task session

theorem Stands.passed {after : ChildSession} (stands : Stands spawns answers root task session)
    (passes : Passes task session after) : Stands spawns answers root task after := by
  cases stands with
  | waiting waits unfinished undecided learnt =>
    exact .waiting (passes.waiting.trans waits) (passes.finished.trans unfinished)
      (undecided.of_standing passes.standing) learnt
  | ended idle finished settled =>
    exact .ended (passes.waiting.trans idle) (passes.finished.trans finished)
      (settled.of_standing passes.standing)

theorem stands_settle {result : Link × Attempt LaunchStage Bool} (free : session.Free task)
    (unfinished : session.finished.get? task = none) (comes : Link.Comes spawns answers root result) :
    Stands spawns answers root task (session.settle task (Link.startTask result)) ∧
      (session.settle task (Link.startTask result)).Free task := by
  obtain ⟨link, attempt⟩ := result
  cases attempt with
  | done outcome =>
    obtain ⟨isVerdict, settled⟩ := comes
    subst isVerdict
    refine ⟨.ended ?_ ?_ settled, ?_⟩
    · simp [Link.startTask, Attempt.widen, settle, Table.get?_erase]
    · simp [Link.startTask, Attempt.widen, settle, Table.get?_put]
    · intro other stage apart waits
      simp only [Link.startTask, Attempt.widen, settle, Table.get?_erase, if_neg apart] at waits
      exact free other stage apart waits
  | blocked key stage =>
    obtain ⟨undecided, learnt⟩ := comes
    refine ⟨.waiting ?_ unfinished undecided learnt, ?_⟩
    · simp [Link.startTask, Attempt.widen, settle, Table.get?_put]
    · intro other stage apart waits
      simp only [Link.startTask, Attempt.widen, settle, Table.get?_put, if_neg apart] at waits
      exact free other stage apart waits

theorem Stands.act (stands : Stands spawns answers root task session) (free : session.Free task)
    {event : ChildEvent} (attends : session.Attends spawns answers task event) :
    Stands spawns answers root task (session.act event) ∧ (session.act event).Free task := by
  rcases act_cases free attends with passes | ⟨key, reply, stage, isRelease, holds, isStage, next⟩
  · exact ⟨stands.passed passes, passes.free free⟩
  · cases stands with
    | ended idle => cases idle.symm.trans isStage
    | waiting waits unfinished undecided learnt =>
      cases waits.symm.trans isStage
      subst isRelease
      rw [next]
      have freed : Free task { session with held := session.held.erase key } := free
      exact stands_settle freed unfinished
        (Link.resumeStart_comes undecided learnt (attends holds _ waits))

def due (session : ChildSession) (task : Nat) : Nat :=
  match session.waiting.get? task with
  | some (.start stage) => stage.due
  | _ => 0

theorem due_settle (session : ChildSession) (task : Nat) {result : Link × Attempt LaunchStage Bool}
    {bound : Nat} (positive : 0 < bound) (below : Link.DueBelow bound result.2) :
    (session.settle task (Link.startTask result)).due task < bound := by
  obtain ⟨link, attempt⟩ := result
  cases attempt with
  | done outcome => simpa [Link.startTask, Attempt.widen, settle, due, Table.get?_erase] using positive
  | blocked key stage =>
    simpa [Link.startTask, Attempt.widen, settle, due, Table.get?_put] using below key stage rfl

theorem due_release {stage : LaunchStage} {key : String} {reply : Reply}
    (waits : session.waiting.get? task = some (.start stage)) (holds : session.held.get? key = some task)
    (given : reply.isGiven = true) : (session.act (.release key reply)).due task < session.due task := by
  have now : session.due task = stage.due := by simp only [due, waits]
  simp only [act, release, holds, waits, now]
  exact due_settle _ task stage.due_bounds.1 (Link.resumeStart_due session.link stage given)

theorem due_act (stands : Stands spawns answers root task session) (free : session.Free task)
    {event : ChildEvent} (attends : session.Attends spawns answers task event) :
    (session.act event).due task ≤ session.due task := by
  rcases act_cases free attends with passes | ⟨key, reply, reached, isRelease, holds, isReached, next⟩
  · exact Nat.le_of_eq (by simp only [due, passes.waiting])
  · cases stands with
    | ended idle => cases idle.symm.trans isReached
    | @waiting stage waits =>
      cases waits.symm.trans isReached
      subst isRelease
      -- a reply that is held back once more leaves the start where it is
      cases isGiven : reply.isGiven with
      | true => exact Nat.le_of_lt (due_release waits holds isGiven)
      | false =>
        have now : session.due task = stage.due := by simp only [due, waits]
        rw [next, now]
        exact Nat.le_of_lt_succ (due_settle _ task (Nat.succ_pos _)
          (Link.resumeStart_held session.link stage isGiven))

/-- A server that nobody has tried to start. -/
structure Fallow (task : Nat) (session : ChildSession) : Prop where
  down : session.link.server.started = false
  unfailed : session.link.server.failed = false
  idle : session.waiting.get? task = none
  unfinished : session.finished.get? task = none
  free : session.Free task

theorem reached_fallow {server : ChildServer} {publishes : Bool} {events : List ChildEvent}
    (unfailed : server.failed = false)
    (reached : Reached act (Attends spawns answers task) (fresh server publishes) events session) :
    session.Fallow task := by
  refine reached.invariant (Fallow task) ⟨rfl, unfailed, rfl, rfl, ?_⟩ ?_
  · intro other stage _ waits
    cases waits
  · intro session event attends fallow
    rcases act_cases fallow.free attends with passes | ⟨_, _, _, -, -, waits, -⟩
    · exact ⟨(congrArg Standing.started passes.standing).trans fallow.down,
        (congrArg Standing.failed passes.standing).trans fallow.unfailed,
        passes.waiting.trans fallow.idle, passes.finished.trans fallow.unfinished,
        passes.free fallow.free⟩
    · cases fallow.idle.symm.trans waits

/-- A start that is made of a fresh server, and neither given up nor joined by another start or a stop,
is over when it no longer waits for the child server, and that takes four answers at most. The process
was not spawned or the handshake failed, and the server has failed and has no client; or the server is
up; or the root is relative, and the server is left with its client and no mark. -/
theorem start_settles_once_answered {server : ChildServer} {publishes : Bool}
    {earlier later : List ChildEvent} {before after : ChildSession} (unfailed : server.failed = false)
    (unasked : Reached act (Attends spawns answers task) (fresh server publishes) earlier before)
    (heeds : before.link.Heeds spawns answers .spawn (before.link.take .spawn).1)
    (reached : Reached act (Attends spawns answers task) (before.submit task (.start root)) later after) :
    (∃ stage, after.waiting.get? task = some (.start stage) ∧ after.finished.get? task = none ∧
      after.link.Undecided ∧ after.due task ≤ 4 ∧
      (∀ event, after.Attends spawns answers task event →
        (after.act event).due task ≤ after.due task) ∧
      ∀ key reply, after.held.get? key = some task → reply.isGiven = true →
        (after.act (.release key reply)).due task < after.due task) ∨
    (after.waiting.get? task = none ∧
      after.finished.get? task = some ((Link.verdict spawns answers root).map Response.truth) ∧
      after.link.Settled (Link.verdict spawns answers root)) := by
  have fallow := reached_fallow unfailed unasked
  have started : Stands spawns answers root task (before.submit task (.start root)) ∧
      (before.submit task (.start root)).Free task :=
    stands_settle fallow.free fallow.unfinished (Link.start_comes fallow.down fallow.unfailed heeds root)
  obtain ⟨stands, free⟩ := reached.invariant
    (fun session => Stands spawns answers root task session ∧ session.Free task) started
    fun session event attends held => held.1.act held.2 attends
  rcases stands with @⟨stage, waits, unfinished, undecided, learnt⟩ | ⟨idle, finished, settled⟩
  · refine Or.inl ⟨stage, waits, unfinished, undecided, ?_, ?_, ?_⟩
    · simpa only [due, waits] using stage.due_bounds.2
    · exact fun event attends => due_act (.waiting waits unfinished undecided learnt) free attends
    · exact fun key reply holds given => due_release waits holds given
  · exact Or.inr ⟨idle, finished, settled⟩

/-- A handshake that is refused late, while settings come in. -/
theorem start_settles_after_late_refusal :
    let server : ChildServer := { language := "python", command := ["p"] }
    let before := (fresh server true).act (.prepare (.child "python") .handshake [.hold (some "k")])
    let asked := before.submit 0 (.start (some "/w"))
    let after := (asked.act (.submit 1 (.updateSettings (.map [])))).act (.release "k" (.failure "no"))
    asked.finished.get? 0 = none ∧ after.finished.get? 0 = some (.ok (.truth false)) ∧
      after.link.Settled (.ok false) := by
  intro server before asked after
  have unasked : Reached act (Attends true false 0) (fresh server true) [_] before :=
    .step .start (ChildEvent.prepare (.child "python") .handshake [.hold (some "k")]) trivial
  have refusal : Attends true false 0 (asked.act (.submit 1 (.updateSettings (.map []))))
      (.release "k" (.failure "no")) := by
    intro _ stage waits
    have now : (asked.act (.submit 1 (.updateSettings (.map [])))).waiting.get? 0 =
      some (.start .handshake) := rfl
    cases now.symm.trans waits
    rfl
  have reached : Reached act (Attends true false 0) asked [_, _] after :=
    .step (.step .start (ChildEvent.submit 1 (.updateSettings (.map []))) ⟨by decide, trivial⟩)
      (ChildEvent.release "k" (.failure "no")) refusal
  have heeds : before.link.Heeds true false .spawn (before.link.take .spawn).1 := by
    refine ⟨rfl, fun _ _ => trivial⟩
  have ended : after.waiting.get? 0 = none := rfl
  refine ⟨rfl, ?_⟩
  rcases start_settles_once_answered rfl unasked heeds reached with ⟨stage, waits, _⟩ | ⟨-, settled⟩
  · cases ended.symm.trans waits
  · exact settled

/-- With a relative root the start raises. The process has been spawned, and the server has neither
come up nor failed. -/
theorem start_stranded_by_relative_root :
    let server : ChildServer := { language := "python", command := ["p"] }
    let after := (fresh server true).submit 0 (.start (some "rel"))
    after.waiting.get? 0 = none ∧ after.finished.get? 0 = some (.error .relativeRoot) ∧
      after.link.server.standing = ⟨"python", some 0, false, false⟩ := by
  exact ⟨rfl, rfl, rfl⟩

end ChildSession

end LanguageBridge
