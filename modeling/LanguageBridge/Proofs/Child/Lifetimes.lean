import LanguageBridge.Proofs.Child.Notices
import LanguageBridge.Proofs.Child.Routine
import LanguageBridge.Proofs.Execution

namespace LanguageBridge

/-! Over any sequence of starts, stops and changes, the clients of a child server see each document in
proper lifetimes, and the table of open documents is what the present client has seen. -/

namespace Link

theorem Aside.retires {before after : Link} (aside : before.Aside after) :
    before.Retires Effect.Quiet after where
  language := by rw [aside.server]
  openDocuments := by rw [aside.server]
  started := by rw [aside.server]; exact id
  client := by rw [aside.server]; exact fun _ => id
  clients := Nat.le_of_eq aside.clients.symm
  effects := aside.effects.mono fun _ => Effect.Silent.quiet
  bounded := by
    intro bounded
    obtain ⟨more, same, silent⟩ := aside.effects
    constructor
    · intro effect member
      rw [same] at member
      rw [aside.clients]
      rcases List.mem_append.mp member with old | new
      · exact bounded.effects effect old
      · exact (silent effect new).below _
    · rw [aside.server, aside.clients]
      exact bounded.client

/-- Every client was told proper lifetimes, and the table says how far the present client is in
them. -/
structure Documented (language : String) (link : Link) : Prop where
  named : link.server.language = language
  bounded : link.Bounded
  down : link.server.started = false → ∀ aliasUri, link.server.openDocuments.get? aliasUri = none
  told : ∀ client aliasUri, ∃ standing,
    Notice.Told (notices language client aliasUri link.wire.effects) standing
  current : ∀ client, link.server.client = some client → ∀ aliasUri,
    Notice.Told (notices language client aliasUri link.wire.effects)
      (link.server.openDocuments.get? aliasUri)

namespace Documented

variable {language : String} {before after link : Link} {client : Nat}

theorem retired {kind : Effect → Prop} (documented : before.Documented language)
    (retires : before.Retires kind after) (quiet : ∀ effect, kind effect → effect.Quiet) :
    after.Documented language := by
  have same (client : Nat) (aliasUri : String) :
      notices language client aliasUri after.wire.effects =
        notices language client aliasUri before.wire.effects :=
    (retires.effects.mono quiet).notices_eq _ _ _
  constructor
  case named => exact retires.language.trans documented.named
  case bounded => exact retires.bounded documented.bounded
  case down =>
    intro stopped
    rw [retires.openDocuments]
    refine documented.down (Bool.eq_false_iff.mpr fun up => ?_)
    rw [retires.started up] at stopped
    contradiction
  case told =>
    intro client aliasUri
    rw [same]
    exact documented.told client aliasUri
  case current =>
    intro client held aliasUri
    rw [same, retires.openDocuments]
    exact documented.current client (retires.client client held) aliasUri

/-- A new client has been told nothing, and a server that is down has nothing open. -/
theorem newClient (documented : link.Documented language) (stopped : link.server.started = false) :
    link.newClient.Documented language := by
  have extended : link.Extends Effect.Plain link.newClient := .newClient stopped
  have same (client : Nat) (aliasUri : String) :
      notices language client aliasUri link.newClient.wire.effects =
        notices language client aliasUri link.wire.effects :=
    (extended.effects.mono fun _ => Effect.Plain.quiet).notices_eq _ _ _
  constructor
  case named => exact documented.named
  case bounded => exact extended.bounded documented.bounded
  case down => exact documented.down
  case told =>
    intro client aliasUri
    rw [same]
    exact documented.told client aliasUri
  case current =>
    intro client held aliasUri
    cases held
    rw [same, notices_of_below documented.bounded.effects (Nat.le_refl _),
      extended.openDocuments, documented.down stopped]
    exact .nothing

theorem start (documented : link.Documented language) (root : Option String) :
    (link.start root).1.Documented language := by
  cases up : link.server.started with
  | true => simpa [Link.start, up] using documented
  | false =>
    have asked : link.newClient.Retires Effect.Quiet link.spawning := by
      refine retires_asking rfl ?_ .spawn
      exact rfl
    have spawning := (documented.newClient up).retired asked fun _ => id
    exact spawning.retired (Ventures.start up root).retires fun _ => Effect.Steering.quiet

section

variable (documented : link.Documented language)
include documented

theorem halted {result : Link × Attempt HaltStage Unit} (halts : link.Halts result) :
    (afterHalt result).1.Documented language := by
  obtain ⟨reached, attempt⟩ := result
  have kept : reached.Documented language := documented.retired halts.retires fun _ => Effect.Steering.quiet
  match attempt, halts.ends with
  | .blocked key stage, _ => exact kept
  | .done (.error fault), _ => exact kept
  | .done (.ok ()), ends =>
    have gone : reached.server.client = none := (ends _ rfl).2
    refine ⟨kept.named, ⟨kept.bounded.effects, kept.bounded.client⟩, fun _ _ => rfl, kept.told, ?_⟩
    intro client held
    rw [show reached.server.client = some client from held] at gone
    contradiction

/-! ### Documents -/

theorem notify (up : link.client? = some client) (notice : Notice) {message : ChildMessage}
    {aliasUri : String} {noted : Table String Int} {standing : Option Int}
    (about : ∀ other, message.notice? other = if other = aliasUri then some notice else none)
    (others : ∀ other, other ≠ aliasUri → noted.get? other = link.server.openDocuments.get? other)
    (isNoted : noted.get? aliasUri = standing)
    (told : Notice.Told (notices language client aliasUri link.wire.effects ++ [notice]) standing) :
    Documented language { (link.emit client message) with
      server := { link.server with openDocuments := noted } } := by
  obtain ⟨started, held⟩ := client?_eq_some.mp up
  have bounded : (link.emit client message).Bounded :=
    (Retires.emit held trivial : link.Retires (fun _ => True) _).bounded documented.bounded
  have said (toClient : Nat) (other : String) :
      notices language toClient other (link.emit client message).wire.effects =
        notices language toClient other link.wire.effects ++
          if toClient = client ∧ other = aliasUri then [notice] else [] := by
    simp only [notices, Link.emit, Wire.emit, List.filterMap_append, List.filterMap_cons,
      List.filterMap_nil, Effect.notice?, documented.named, about]
    by_cases same : client = toClient
    · by_cases sameDocument : other = aliasUri <;> simp [same, sameDocument]
    · simp [same, Ne.symm same]
  constructor
  case named => exact documented.named
  case bounded => exact ⟨bounded.effects, bounded.client⟩
  case down =>
    intro stopped
    rw [show link.server.started = false from stopped] at started
    contradiction
  case told =>
    intro toClient other
    rw [said]
    split
    · rename_i same
      exact ⟨_, same.1 ▸ same.2 ▸ told⟩
    · rw [List.append_nil]
      exact documented.told toClient other
  case current =>
    intro toClient isClient other
    have same : toClient = client := Option.some.inj (isClient.symm.trans held)
    subst same
    rw [said]
    by_cases sameDocument : other = aliasUri
    · simpa [sameDocument, isNoted] using told
    · simp only [sameDocument, and_false, if_false, List.append_nil]
      rw [others other sameDocument]
      exact documented.current toClient held other

theorem syncDocument (aliasUri text : String) (version : Int) :
    (link.syncDocument aliasUri text version).Documented language := by
  cases up : link.client? with
  | none => rwa [syncDocument_down up]
  | some client =>
    have told := documented.current client (client?_eq_some.mp up).2 aliasUri
    have others (other : String) (different : other ≠ aliasUri) :
        (link.server.openDocuments.put aliasUri version).get? other =
          link.server.openDocuments.get? other := by
      rw [Table.get?_put, if_neg different]
    have noted : (link.server.openDocuments.put aliasUri version).get? aliasUri =
        some version := by
      rw [Table.get?_put, if_pos rfl]
    simp only [Link.syncDocument, up]
    cases known : link.server.openDocuments.get? aliasUri with
    | none =>
      rw [known] at told
      refine documented.notify up (.opened version) ?_ others noted (.opened told version)
      intro other
      simp [ChildMessage.notice?, eq_comm]
    | some before =>
      rw [known] at told
      by_cases same : before = version
      · simpa [same] using documented
      · simp only [if_neg same]
        refine documented.notify up (.changed version) ?_ others noted (.changed told same)
        intro other
        simp [ChildMessage.notice?, eq_comm]

theorem closeDocument (aliasUri : String) :
    (link.closeDocument aliasUri).Documented language := by
  cases known : link.server.openDocuments.get? aliasUri with
  | none => simpa [Link.closeDocument, isOpen, Table.contains, known] using documented
  | some version =>
    have others (other : String) (different : other ≠ aliasUri) :
        (link.server.openDocuments.erase aliasUri).get? other =
          link.server.openDocuments.get? other := by
      rw [Table.get?_erase, if_neg different]
    have noted : (link.server.openDocuments.erase aliasUri).get? aliasUri = none := by
      rw [Table.get?_erase, if_pos rfl]
    have started : link.server.started = true := by
      by_contra stopped
      rw [documented.down (Bool.eq_false_iff.mpr stopped)] at known
      contradiction
    cases held : link.server.client with
    | none =>
      have unsaid : link.closeDocument aliasUri =
          { link with server := { link.server with
            openDocuments := link.server.openDocuments.erase aliasUri } } := by
        simp [Link.closeDocument, isOpen, Table.contains, known, client?, held]
      rw [unsaid]
      refine ⟨documented.named, ⟨documented.bounded.effects, documented.bounded.client⟩, ?_,
        documented.told, ?_⟩
      · intro stopped
        exact absurd started (Bool.eq_false_iff.mp stopped)
      · intro client isClient
        rw [show link.server.client = some client from isClient] at held
        contradiction
    | some client =>
      have told := documented.current client held aliasUri
      rw [known] at told
      have shut : link.closeDocument aliasUri =
          { (link.emit client (.didClose aliasUri)) with
            server := { link.server with
              openDocuments := link.server.openDocuments.erase aliasUri } } := by
        simp [Link.closeDocument, isOpen, Table.contains, known, client?, started, held,
          Link.emit]
      rw [shut]
      refine documented.notify (client?_eq_some.mpr ⟨started, held⟩) .closed ?_ others noted
        (.closed told)
      intro other
      simp [ChildMessage.notice?, eq_comm]

theorem closeDocument_down (stopped : link.server.started = false) (aliasUri : String) :
    link.closeDocument aliasUri = link := by
  simp [Link.closeDocument, isOpen, Table.contains, documented.down stopped]

end

end Documented

end Link

/-! ### Sessions -/

/-- What can happen to a child server by itself: commands come in, replies are made ready or released,
and waiting commands are given up. -/
inductive ChildEvent where
  | submit (task : Nat) (command : ChildCommand)
  | release (key : String) (reply : Reply)
  | cancel (task : Nat)
  | prepare (peer : Peer) (call : Call) (replies : List Reply)

namespace ChildSession

def fresh (server : ChildServer) (publishes : Bool) : ChildSession where
  link :=
    { server := { server with client := none, started := false, openDocuments := {} }, wire := {} }
  publishes := publishes

def act (session : ChildSession) : ChildEvent → ChildSession
  | .submit task command => session.submit task command
  | .release key reply => (session.release key reply).2
  | .cancel task => (session.cancel task).2
  | .prepare peer call replies =>
    { session with link := { session.link with
      wire := session.link.wire.prepare peer call replies } }

variable {language : String} {session : ChildSession}

theorem link_settle (session : ChildSession) (task : Nat) (attempted : Link × ChildAttempt) :
    (session.settle task attempted).link = attempted.1 := by
  obtain ⟨link, attempt⟩ := attempted
  cases attempt <;> rfl

theorem receive_aside (session : ChildSession) (message : Inbound) :
    session.link.Aside (session.receive message).1 := by
  simp only [receive]
  split
  · split
    · split
      · exact .refl _
      · exact ⟨rfl, rfl, .emit _ trivial⟩
    · exact .refl _
  · exact .refl _
  · exact .receive _ _

theorem receive_serves (session : ChildSession) (message : Inbound) :
    (session.receive message).2.Serves := by
  simp only [receive]
  split
  · split
    · split <;> simp [Attempt.Serves]
    · simp [Attempt.Serves]
  · simp [Attempt.Serves]
  · exact Link.receive_serves _ _

theorem request_retires (link : Link) (method : Method) (params : Params) :
    link.Retires Effect.Quiet (link.request method params).1 := by
  obtain ⟨extended, same⟩ := link.request_extends method params
  refine { extended.retires (by rw [same]) with effects := extended.effects.mono ?_ }
  rintro effect ⟨client, _, rfl⟩
  rfl

/-- What a command or a reply does to the link, unless it opens or closes a document or begins a
start. -/
theorem perform_documented (documented : session.link.Documented language) (command : ChildCommand) :
    (session.perform command).1.Documented language := by
  cases command with
  | start root => exact documented.start root
  | stop => exact documented.halted (.halt _)
  | updateSettings settings =>
    exact documented.retired (session.link.updateSettings_retires settings).1
      fun _ => Effect.Steering.quiet
  | syncDocument aliasUri text version =>
    simp only [perform]
    split
    · exact documented
    · exact documented.syncDocument aliasUri text version
  | closeDocument aliasUri => exact documented.closeDocument aliasUri
  | request method params => exact documented.retired (request_retires _ method params) fun _ => id
  | receive language message =>
    simp only [perform]
    split
    · exact documented.retired (session.receive_aside message).retires fun _ => id
    · exact documented
  | configuration params => exact documented.retired (Link.Aside.receive _ _).retires fun _ => id

theorem resume_documented {link : Link} (documented : link.Documented language) (task : ChildTask)
    (reply : Reply) : (task.resume link reply).1.Documented language := by
  cases task with
  | start stage =>
    exact documented.retired (Link.Ventures.resumeStart link stage reply).retires
      fun _ => Effect.Steering.quiet
  | stop stage => exact documented.halted (.resumeHalt link stage reply)
  | _ => exact documented

theorem act_documented (documented : session.link.Documented language) (event : ChildEvent) :
    (session.act event).link.Documented language := by
  cases event with
  | submit task command =>
    simp only [act, submit, link_settle]
    exact perform_documented documented command
  | release key reply =>
    simp only [act, release]
    split
    · exact documented
    · split
      · exact documented
      · simp only [link_settle]
        exact resume_documented documented _ reply
  | cancel task =>
    simp only [act, cancel]
    split <;> exact documented
  | prepare peer call replies =>
    exact documented.retired (Link.Aside.retires ⟨rfl, rfl, .of_effects rfl⟩) fun _ => id

/-! ### Nothing is said while the server is down -/

theorem perform_quiet (documented : session.link.Documented language)
    (stopped : session.link.server.started = false) (command : ChildCommand) :
    session.link.wire.Adds Effect.Quiet (session.perform command).1.wire := by
  have down : session.link.client? = none := by simp [Link.client?, stopped]
  cases command with
  | start root => exact (session.link.start_unnoticed root).mono fun _ => Effect.Unnoticed.quiet
  | stop =>
    exact (Link.Routine.stop session.link).mono fun _ routine => routine.unnoticed.quiet
  | updateSettings settings =>
    exact (Link.Routine.updateSettings session.link settings).mono
      fun _ routine => routine.unnoticed.quiet
  | syncDocument aliasUri text version =>
    simp only [perform, Link.syncDocument_down down]
    split <;> exact .refl _
  | closeDocument aliasUri =>
    simp only [perform, documented.closeDocument_down stopped]
    exact .refl _
  | request method params => exact (request_retires _ method params).effects
  | receive language message =>
    simp only [perform]
    split
    · exact (session.receive_aside message).retires.effects
    · exact .refl _
  | configuration params => exact (Link.Aside.receive _ _).retires.effects

theorem act_quiet (documented : session.link.Documented language)
    (stopped : session.link.server.started = false) (event : ChildEvent) :
    session.link.wire.Adds Effect.Quiet (session.act event).link.wire := by
  cases event with
  | submit task command =>
    simp only [act, submit, link_settle]
    exact perform_quiet documented stopped command
  | release key reply =>
    simp only [act, release]
    split
    · exact .refl _
    · split
      · exact .refl _
      · simp only [link_settle]
        exact (Link.Routine.resume session.link _ reply).mono
          fun _ routine => routine.unnoticed.quiet
  | cancel task =>
    simp only [act, cancel]
    split <;> exact .refl _
  | prepare peer call replies => exact .of_effects rfl

theorem fresh_documented (server : ChildServer) (publishes : Bool) :
    (fresh server publishes).link.Documented server.language where
  named := rfl
  bounded := ⟨by simp [fresh], by simp [fresh]⟩
  down := fun _ _ => rfl
  told := fun _ _ => ⟨none, .nothing⟩
  current := by simp [fresh]

/-! ### One start at a time -/

/-- A start comes only while no other start waits. -/
def StartsAlone (session : ChildSession) : ChildEvent → Prop
  | .submit _ (.start _) => ∀ task stage, session.waiting.get? task ≠ some (.start stage)
  | _ => True

structure Alone (session : ChildSession) : Prop where
  single : ∀ first second stage other, session.waiting.get? first = some (.start stage) →
    session.waiting.get? second = some (.start other) → first = second
  waits : ∀ task stage, session.waiting.get? task = some (.start stage) →
    session.link.server.started = false
  up : session.link.server.started = true → session.link.server.client.isSome = true

namespace Alone

variable {task : Nat} {attempted : Link × ChildAttempt}

section

variable (alone : session.Alone)
include alone

theorem settle (mine : ∀ key stage, attempted.2 = .blocked key (.start stage) →
      attempted.1.server.started = false ∧
        ∀ other theirs, other ≠ task → session.waiting.get? other ≠ some (.start theirs))
    (theirs : ∀ other stage, other ≠ task → session.waiting.get? other = some (.start stage) →
      attempted.1.server.started = false)
    (up : attempted.1.server.started = true → attempted.1.server.client.isSome = true) :
    (session.settle task attempted).Alone := by
  obtain ⟨link, attempt⟩ := attempted
  cases attempt with
  | done outcome =>
    refine ⟨?_, ?_, up⟩
    · exact fun _ _ _ _ isFirst isSecond => alone.single _ _ _ _ (Table.of_get?_erase isFirst).2
        (Table.of_get?_erase isSecond).2
    · intro other stage waiting
      obtain ⟨different, before⟩ := Table.of_get?_erase waiting
      exact theirs other stage different before
  | blocked key reached =>
    refine ⟨?_, ?_, up⟩
    · intro first second stage other isFirst isSecond
      rcases Table.of_get?_put isFirst with ⟨rfl, rfl⟩ | ⟨firstOther, wasFirst⟩
      · rcases Table.of_get?_put isSecond with ⟨same, _⟩ | ⟨different, wasSecond⟩
        · exact same.symm
        · exact absurd wasSecond ((mine key stage rfl).2 second other different)
      · rcases Table.of_get?_put isSecond with ⟨rfl, rfl⟩ | ⟨_, wasSecond⟩
        · exact absurd wasFirst ((mine key other rfl).2 first stage firstOther)
        · exact alone.single _ _ _ _ wasFirst wasSecond
    · intro other stage waiting
      rcases Table.of_get?_put waiting with ⟨rfl, rfl⟩ | ⟨different, before⟩
      · exact (mine key stage rfl).1
      · exact theirs other stage different before

/-- What does not bring a server up, and while it is up leaves it its client. -/
theorem pass (unstarted : ∀ key stage, attempted.2 ≠ .blocked key (.start stage))
    (kept : attempted.1.server.started = true → session.link.server.started = true ∧
      attempted.1.server.client = session.link.server.client) :
    (session.settle task attempted).Alone := by
  refine alone.settle (fun key stage blocked => absurd blocked (unstarted key stage)) ?_ ?_
  · intro other stage _ waiting
    refine Bool.eq_false_iff.mpr fun up => ?_
    have before := alone.waits other stage waiting
    rw [(kept up).1] at before
    contradiction
  · intro up
    rw [(kept up).2]
    exact alone.up (kept up).1

theorem venture {before : Link} {result : Link × Attempt LaunchStage Bool}
    (ventures : before.Ventures result) (stopped : before.server.started = false)
    (only : ∀ other stage, other ≠ task → session.waiting.get? other ≠ some (.start stage)) :
    (session.settle task (Link.startTask result)).Alone := by
  refine alone.settle ?_ (fun other stage different waiting => absurd waiting (only _ _ different)) ?_
  · intro key stage blocked
    refine ⟨?_, only⟩
    obtain ⟨link, attempt⟩ := result
    cases attempt with
    | done outcome => cases blocked
    | blocked held reached => exact (ventures.same (by simp)).trans stopped
  · intro up
    by_cases ended : result.2 = .done (.ok true)
    · exact ventures.up ended
    · have stillDown := (ventures.same ended).trans stopped
      rw [show result.1.server.started = true from up] at stillDown
      contradiction

theorem halt {result : Link × Attempt HaltStage Unit} (halts : session.link.Halts result) :
    (session.settle task (Link.stopTask (Link.afterHalt result))).Alone := by
  obtain ⟨link, attempt⟩ := result
  have same : link.server.started = session.link.server.started :=
    congrArg (fun marks => marks.2.1) halts.marks
  refine alone.pass ?_ ?_
  · intro key stage blocked
    match attempt with
    | .done (.ok ()) => cases blocked
    | .done (.error fault) => cases blocked
    | .blocked held reached => cases blocked
  · intro up
    match attempt, halts.ends, halts.waits with
    | .done (.ok ()), _, _ => cases up
    | .done (.error fault), ends, _ => cases (ends _ rfl).1
    | .blocked held reached, _, waits => exact ⟨same.symm.trans up, waits held reached rfl⟩

theorem tells {after : Link} {outcome : Outcome} {aliasUri : String}
    (tells : session.link.Tells aliasUri after) :
    (session.settle task (after, .done outcome)).Alone :=
  alone.pass (by simp) fun up => ⟨tells.started.symm.trans up, tells.client⟩

theorem aside {after : Link} {attempt : ChildAttempt} (same : after.server = session.link.server)
    (serves : Attempt.Serves attempt) : (session.settle task (after, attempt)).Alone := by
  refine alone.pass ?_ ?_
  · intro key stage blocked
    exact serves key _ blocked
  · intro up
    rw [← same]
    exact ⟨up, rfl⟩

theorem submit {command : ChildCommand} (permitted : session.StartsAlone (.submit task command)) :
    (session.submit task command).Alone := by
  cases command with
  | start root =>
    cases up : session.link.server.started with
    | true =>
      simp only [ChildSession.submit, perform, Link.start, up, if_true]
      exact alone.aside rfl (by simp [Attempt.Serves, Attempt.widen])
    | false =>
      refine alone.venture (Link.Ventures.start up root) up ?_
      exact fun other stage _ => permitted other stage
  | stop => exact alone.halt (.halt _)
  | updateSettings settings =>
    obtain ⟨_, client, marks⟩ := session.link.updateSettings_retires settings
    have started := congrArg (fun marks => marks.2.1) marks
    exact alone.pass (by simp [perform]) fun up => ⟨started.symm.trans up, client⟩
  | syncDocument aliasUri text version =>
    simp only [ChildSession.submit, perform]
    split
    · exact alone.tells (.refl _ aliasUri)
    · exact alone.tells (Link.syncDocument_tells _ _ _ _)
  | closeDocument aliasUri => exact alone.tells (Link.closeDocument_tells _ _)
  | request method params =>
    refine alone.aside (Link.request_extends _ method params).2 (Attempt.widen_serves ?_ _)
    exact fun _ => trivial
  | receive language message =>
    simp only [ChildSession.submit, perform]
    split
    · exact alone.aside (session.receive_aside message).server (session.receive_serves message)
    · exact alone.aside rfl (by simp [Attempt.Serves])
  | configuration params =>
    exact alone.aside (Link.Aside.receive session.link (.configuration params)).server
      (Link.receive_serves session.link (.configuration params))

theorem resume {stage : ChildTask} (waiting : session.waiting.get? task = some stage)
    (reply : Reply) :
    (session.settle task (stage.resume session.link reply)).Alone := by
  cases stage with
  | start stage =>
    refine alone.venture (Link.Ventures.resumeStart _ stage reply) (alone.waits _ _ waiting) ?_
    intro other theirs different also
    exact different (alone.single _ _ _ _ also waiting)
  | stop stage => exact alone.halt (.resumeHalt _ stage reply)
  | _ =>
    refine alone.aside rfl (Attempt.widen_serves ?_ _)
    exact fun _ => trivial

theorem act {event : ChildEvent} (permitted : session.StartsAlone event) :
    (session.act event).Alone := by
  cases event with
  | submit task command => exact alone.submit permitted
  | release key reply =>
    simp only [ChildSession.act, release]
    split
    · exact alone
    · rename_i task _
      have freed : Alone { session with held := session.held.erase key } :=
        ⟨alone.single, alone.waits, alone.up⟩
      split
      · exact freed
      · rename_i stage waiting
        exact freed.resume waiting reply
  | cancel task =>
    simp only [ChildSession.act, cancel]
    split
    · exact ⟨fun _ _ _ _ isFirst isSecond => alone.single _ _ _ _ (Table.of_get?_erase isFirst).2
          (Table.of_get?_erase isSecond).2,
        fun other stage waiting => alone.waits other stage (Table.of_get?_erase waiting).2, alone.up⟩
    · exact alone
  | prepare peer call replies => exact ⟨alone.single, alone.waits, alone.up⟩

end

end Alone

theorem fresh_alone (server : ChildServer) (publishes : Bool) : (fresh server publishes).Alone := by
  refine ⟨?_, ?_, ?_⟩ <;> simp [fresh, Table.get?]

/-! ### Every run -/

/-- What was said last to a client about a document leaves the document open. -/
def LeftOpen (session : ChildSession) (language : String) (client : Nat) (aliasUri : String) : Prop :=
  ∃ notice, (notices language client aliasUri session.link.wire.effects).getLast? = some notice ∧
    notice ≠ .closed

theorem isOpen_iff (documented : session.link.Documented language) {client : Nat}
    (held : session.link.server.client = some client) (aliasUri : String) :
    session.link.isOpen aliasUri = true ↔ session.LeftOpen language client aliasUri :=
  (documented.current client held aliasUri).isSome_iff

/-- Every client of a server sees each document in lifetimes of an opening, changes and a closing, and
changes come with new versions. While the server is down nothing is said about documents. A document
is open if the last thing the present client was told leaves it open. If starts come one at a time,
then nothing is open without a client; else a start that fails may drop the client under another
start that has succeeded. -/
theorem documents_seen_in_lifetimes {server : ChildServer} {publishes : Bool}
    {events : List ChildEvent}
    (reached : Reached act Anything (fresh server publishes) events session) :
    (∀ client aliasUri,
      (∃ rest, notices server.language client aliasUri session.link.wire.effects ++ rest ∈
        Notice.lifetimes) ∧
      (notices server.language client aliasUri session.link.wire.effects).IsChain Notice.Differ) ∧
    (session.link.server.started = false →
      (∀ event client aliasUri,
        notices server.language client aliasUri (session.act event).link.wire.effects =
          notices server.language client aliasUri session.link.wire.effects) ∧
      ∀ aliasUri text version, session.link.syncDocument aliasUri text version = session.link ∧
        session.link.closeDocument aliasUri = session.link) ∧
    (∀ client, session.link.server.client = some client → ∀ aliasUri,
      (session.link.isOpen aliasUri = true ↔ session.LeftOpen server.language client aliasUri)) ∧
    (Reached act StartsAlone (fresh server publishes) events session → ∀ aliasUri,
      (session.link.isOpen aliasUri = true ↔ ∃ client, session.link.server.client = some client ∧
        session.LeftOpen server.language client aliasUri)) := by
  have documented : session.link.Documented server.language :=
    reached.invariant (fun session => session.link.Documented server.language)
      (fresh_documented server publishes) fun _ event _ documented => act_documented documented event
  refine ⟨?_, ?_, ?_, ?_⟩
  · intro client aliasUri
    obtain ⟨standing, told⟩ := documented.told client aliasUri
    exact ⟨told.exists_rest, told.differ⟩
  · intro stopped
    refine ⟨?_, ?_⟩
    · intro event client aliasUri
      exact (act_quiet documented stopped event).notices_eq _ _ _
    · intro aliasUri text version
      exact ⟨Link.syncDocument_down (by simp [Link.client?, stopped]),
        documented.closeDocument_down stopped aliasUri⟩
  · intro client held aliasUri
    exact isOpen_iff documented held aliasUri
  · intro alone aliasUri
    have isAlone : session.Alone := alone.invariant Alone (fresh_alone server publishes)
      fun _ event permitted isAlone => isAlone.act permitted
    constructor
    · intro isOpen
      have up : session.link.server.started = true := by
        by_contra stopped
        have none := documented.down (Bool.eq_false_iff.mpr stopped) aliasUri
        simp [Link.isOpen, Table.contains, none] at isOpen
      obtain ⟨client, held⟩ := Option.isSome_iff_exists.mp (isAlone.up up)
      exact ⟨client, held, (isOpen_iff documented held aliasUri).mp isOpen⟩
    · rintro ⟨client, held, left⟩
      exact (isOpen_iff documented held aliasUri).mpr left

/-- A start that fails, then two lives of a server. The second client is told about the document anew,
with the version that the first one had last. -/
theorem documents_seen_in_lifetimes_of_restart :
    ∃ (server : ChildServer) (events : List ChildEvent) (session : ChildSession),
      Reached act StartsAlone (fresh server true) events session ∧
      notices "python" 0 "a" session.link.wire.effects = [] ∧
      notices "python" 1 "a" session.link.wire.effects =
        [.opened 1, .changed 2, .closed, .opened 2] ∧
      notices "python" 2 "a" session.link.wire.effects = [.opened 2] ∧
      (∃ rest, [.opened 1, .changed 2, .closed, .opened 2] ++ rest ∈ Notice.lifetimes) ∧
      session.link.server.client = some 2 ∧ session.link.isOpen "a" = true ∧
      session.LeftOpen "python" 2 "a" ∧ session.link.isOpen "b" = false := by
  let server : ChildServer := { language := "python", command := ["p"] }
  have idle {session : ChildSession} (empty : session.waiting.entries.isEmpty = true)
      (event : ChildEvent) : session.StartsAlone event := by
    have none := List.isEmpty_iff.mp empty
    cases event with
    | submit task command => cases command <;> simp [StartsAlone, none, Table.get?]
    | _ => trivial
  have begun : Reached act StartsAlone (fresh server true) [] (fresh server true) := .start
  have reached :=
    begun
      |>.step (.prepare (.child "python") .handshake [.failure "gone"]) (idle (by decide +kernel) _)
      |>.step (.submit 1 (.start none)) (idle (by decide +kernel) _)
      |>.step (.submit 2 (.start none)) (idle (by decide +kernel) _)
      |>.step (.submit 3 (.syncDocument "a" "x" 1)) (idle (by decide +kernel) _)
      |>.step (.submit 4 (.syncDocument "a" "y" 2)) (idle (by decide +kernel) _)
      |>.step (.submit 5 (.closeDocument "a")) (idle (by decide +kernel) _)
      |>.step (.submit 6 (.syncDocument "a" "y" 2)) (idle (by decide +kernel) _)
      |>.step (.submit 7 .stop) (idle (by decide +kernel) _)
      |>.step (.submit 8 (.start none)) (idle (by decide +kernel) _)
      |>.step (.submit 9 (.syncDocument "a" "z" 2)) (idle (by decide +kernel) _)
  obtain ⟨events, session, reached, failed, first, second, present, isOpen, never⟩ :
      ∃ events session, Reached act StartsAlone (fresh server true) events session ∧
        notices "python" 0 "a" session.link.wire.effects = [] ∧
        notices "python" 1 "a" session.link.wire.effects =
          [.opened 1, .changed 2, .closed, .opened 2] ∧
        notices "python" 2 "a" session.link.wire.effects = [.opened 2] ∧
        session.link.server.client = some 2 ∧ session.link.isOpen "a" = true ∧
        session.link.isOpen "b" = false :=
    ⟨_, _, reached, by decide +kernel, by decide +kernel, by decide +kernel, by decide +kernel, by decide +kernel, by decide +kernel⟩
  obtain ⟨seen, -, current, -⟩ := documents_seen_in_lifetimes (reached.mono fun _ _ _ => trivial)
  refine ⟨server, events, session, reached, failed, first, second, ?_, present, isOpen,
    (current 2 present "a").mp isOpen, never⟩
  have lifetimes := (seen 1 "a").1
  rwa [first] at lifetimes

end ChildSession

end LanguageBridge
