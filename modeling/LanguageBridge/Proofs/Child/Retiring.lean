import LanguageBridge.Child.Lifecycle
import LanguageBridge.Proofs.Child.Log

namespace LanguageBridge

/-! Starting and stopping a child server from whatever state it is in, also while it is being started
or stopped already. Nothing is said about documents, and a client that is let go does not come back. -/

namespace Link

/-- All that was sent went to clients there have been, and the present client is one of them. -/
structure Bounded (link : Link) : Prop where
  effects : ∀ effect ∈ link.wire.effects, effect.Below link.wire.clients
  client : ∀ client, link.server.client = some client → client < link.wire.clients

/-- One more thing that can be seen, which goes to a client there has been. -/
theorem Bounded.concat {link after : Link} {effect : Effect} (bounded : link.Bounded)
    (effects : after.wire.effects = link.wire.effects ++ [effect])
    (clients : after.wire.clients = link.wire.clients)
    (client : after.server.client = link.server.client)
    (below : effect.Below link.wire.clients) : after.Bounded := by
  constructor
  · intro shown member
    rw [effects] at member
    rw [clients]
    rcases List.mem_append.mp member with old | new
    · exact bounded.effects shown old
    · rw [List.mem_singleton.mp new]
      exact below
  · rw [client, clients]
    exact bounded.client

/-! ### Letting a client go -/

/-- A link on which things of one kind went on that left the documents alone, and which has the same
client or none. -/
structure Retires (kind : Effect → Prop) (before after : Link) : Prop where
  language : after.server.language = before.server.language
  openDocuments : after.server.openDocuments = before.server.openDocuments
  started : before.server.started = true → after.server.started = true
  client : ∀ client, after.server.client = some client → before.server.client = some client
  clients : before.wire.clients ≤ after.wire.clients
  effects : before.wire.Adds kind after.wire
  bounded : before.Bounded → after.Bounded

variable {kind : Effect → Prop} {before middle after link : Link}

namespace Retires

theorem refl (link : Link) : link.Retires kind link where
  language := rfl
  openDocuments := rfl
  started := id
  client := fun _ => id
  clients := Nat.le_refl _
  effects := .refl _
  bounded := id

theorem trans (first : before.Retires kind middle) (second : middle.Retires kind after) :
    before.Retires kind after where
  language := second.language.trans first.language
  openDocuments := second.openDocuments.trans first.openDocuments
  started := fun up => second.started (first.started up)
  client := fun client held => first.client client (second.client client held)
  clients := Nat.le_trans first.clients second.clients
  effects := first.effects.trans second.effects
  bounded := fun bounded => second.bounded (first.bounded bounded)

theorem emit {client : Nat} {message : ChildMessage} (held : link.server.client = some client)
    (fits : kind (.sent link.server.language client message)) :
    link.Retires kind (link.emit client message) :=
  { (refl link : link.Retires kind link) with
    effects := .emit _ fits
    bounded := fun bounded => bounded.concat rfl rfl rfl (bounded.client client held) }

theorem log {severity : Severity} {text : String} (fits : kind (.logged severity text)) :
    link.Retires kind (link.log severity text) :=
  { (refl link : link.Retires kind link) with
    effects := .emit _ fits
    bounded := fun bounded => bounded.concat rfl rfl rfl trivial }

theorem take (link : Link) (call : Call) : link.Retires kind (link.take call).2 := by
  obtain ⟨effects, clients⟩ := link.wire.take_unseen (.child link.server.language) call
  refine ⟨rfl, rfl, id, fun _ => id, Nat.le_of_eq clients.symm, .of_effects effects, ?_⟩
  intro bounded
  constructor
  · intro effect member
    exact (bounded.effects effect (effects ▸ member)).mono (Nat.le_of_eq clients.symm)
  · intro client held
    exact Nat.lt_of_lt_of_eq (bounded.client client held) clients.symm

theorem markFailed (link : Link) : link.Retires kind link.markFailed :=
  { (refl link : link.Retires kind link) with bounded := fun bounded => ⟨bounded.effects, bounded.client⟩ }

theorem markStarted (link : Link) :
    link.Retires kind { link with server := { link.server with started := true } } :=
  { (refl link : link.Retires kind link) with
    started := fun _ => rfl
    bounded := fun bounded => ⟨bounded.effects, bounded.client⟩ }

theorem dropClient (link : Link) : link.Retires kind link.dropClient :=
  { (refl link : link.Retires kind link) with
    client := by simp [Link.dropClient]
    bounded := fun bounded => ⟨bounded.effects, by simp [Link.dropClient]⟩ }

end Retires

/-- What a server is marked with: its language, whether it is up and whether it has failed. -/
def marks (link : Link) : String × Bool × Bool :=
  (link.server.language, link.server.started, link.server.failed)

theorem retires_asking {client : Nat} {message : ChildMessage}
    (held : link.server.client = some client)
    (fits : kind (.sent link.server.language client message)) (call : Call) :
    link.Retires kind ((link.emit client message).take call).2 :=
  (Retires.emit held fits).trans (.take _ call)

/-! ### Stopping -/

/-- A stop leaves the marks alone. One that has come to an end has let the client go; while it waits,
it has not. -/
structure Halts (before : Link) (result : Link × Attempt HaltStage Unit) : Prop where
  retires : before.Retires Effect.Steering result.1
  marks : result.1.marks = before.marks
  ends : ∀ outcome, result.2 = .done outcome → outcome = .ok () ∧ result.1.server.client = none
  waits : ∀ key stage, result.2 = .blocked key stage →
    result.1.server.client = before.server.client

namespace Halts

theorem preceded {result : Link × Attempt HaltStage Unit}
    (first : before.Retires Effect.Steering middle) (marks : middle.marks = before.marks)
    (same : middle.server.client = before.server.client) (second : middle.Halts result) :
    before.Halts result where
  retires := first.trans second.retires
  marks := second.marks.trans marks
  ends := second.ends
  waits := fun key stage waiting => (second.waits key stage waiting).trans same

theorem afterStop (link : Link) (reply : Reply) : link.Halts (link.afterStop reply) := by
  cases reply with
  | hold key => exact ⟨.refl link, rfl, by simp [Link.afterStop], by simp [Link.afterStop]⟩
  | _ =>
    exact ⟨.dropClient link, rfl, by simp [Link.afterStop, Link.dropClient],
      by simp [Link.afterStop]⟩

theorem gone (absent : link.server.client = none) : link.Halts (link, .done (.ok ())) :=
  ⟨.refl link, rfl, by simp [absent], by simp⟩

theorem stopClient (link : Link) : link.Halts link.stopClient := by
  cases held : link.server.client with
  | none =>
    simp only [Link.stopClient, held]
    exact gone held
  | some client =>
    simp only [Link.stopClient, held]
    exact preceded (retires_asking held ⟨rfl, rfl, rfl⟩ _) rfl rfl (afterStop _ _)

theorem afterShutdown (link : Link) (reply : Reply) : link.Halts (link.afterShutdown reply) := by
  cases reply with
  | hold key => exact ⟨.refl link, rfl, by simp [Link.afterShutdown], by simp [Link.afterShutdown]⟩
  | failure text => exact stopClient link
  | result answer =>
    cases held : link.server.client with
    | none =>
      simp only [Link.afterShutdown, held]
      exact stopClient link
    | some client =>
      simp only [Link.afterShutdown, held]
      exact preceded (.emit held ⟨rfl, rfl, rfl⟩) rfl rfl (stopClient _)

theorem halt (link : Link) : link.Halts link.halt := by
  cases held : link.server.client with
  | none =>
    simp only [Link.halt, held]
    exact gone held
  | some client =>
    simp only [Link.halt, held]
    exact preceded (retires_asking held ⟨rfl, rfl, rfl⟩ _) rfl rfl (afterShutdown _ _)

theorem resumeHalt (link : Link) (stage : HaltStage) (reply : Reply) :
    link.Halts (link.resumeHalt stage reply) := by
  cases stage with
  | shutdown => exact afterShutdown link reply
  | stop => exact afterStop link reply

end Halts

/-! ### Starting -/

/-- The marks that a start leaves: one that succeeds marks the server as up, one that fails as
failed, and else there is no mark. -/
def Verdict (marks : String × Bool × Bool) (after : Link) : Attempt LaunchStage Bool → Prop
  | .done (.ok true) => after.marks = (marks.1, true, marks.2.2)
  | .done (.ok false) => after.marks = (marks.1, marks.2.1, true)
  | _ => after.marks = marks

/-- A start marks the server as up only if there is a client, and only at its end. -/
structure Ventures (before : Link) (result : Link × Attempt LaunchStage Bool) : Prop where
  retires : before.Retires Effect.Steering result.1
  verdict : Verdict before.marks result.1 result.2
  up : result.2 = .done (.ok true) → result.1.server.client.isSome = true

namespace Ventures

theorem preceded {result : Link × Attempt LaunchStage Bool}
    (first : before.Retires Effect.Steering middle) (marks : middle.marks = before.marks)
    (second : middle.Ventures result) : before.Ventures result where
  retires := first.trans second.retires
  verdict := marks ▸ second.verdict
  up := second.up

theorem same {result : Link × Attempt LaunchStage Bool} (ventures : before.Ventures result)
    (short : result.2 ≠ .done (.ok true)) :
    result.1.server.started = before.server.started := by
  obtain ⟨after, attempt⟩ := result
  have verdict := ventures.verdict
  match attempt with
  | .done (.ok true) => contradiction
  | .done (.ok false) => exact congrArg (fun marks => marks.2.1) verdict
  | .done (.error fault) => exact congrArg (fun marks => marks.2.1) verdict
  | .blocked key stage => exact congrArg (fun marks => marks.2.1) verdict

theorem afterGiveUp {halted : Link × Attempt HaltStage Unit} (halts : link.Halts halted) :
    link.Ventures (Link.afterGiveUp halted) := by
  obtain ⟨given, attempt⟩ := halted
  have marks : given.marks = link.marks := halts.marks
  cases attempt with
  | done outcome =>
    refine ⟨halts.retires.trans (.markFailed given), ?_, by simp [Link.afterGiveUp]⟩
    rw [← marks]
    rfl
  | blocked key stage => exact ⟨halts.retires, marks, by simp [Link.afterGiveUp]⟩

theorem giveUp (link : Link) (reason : String) : link.Ventures (link.giveUp reason) :=
  afterGiveUp (.preceded (.log trivial) rfl rfl (.halt _))

theorem greet (link : Link) : link.Ventures link.greet := by
  cases held : link.server.client with
  | none =>
    simp only [Link.greet, held]
    exact ⟨.refl link, rfl, by simp⟩
  | some client =>
    have ready : link.Retires Effect.Steering (link.emit client .ready) :=
      .emit held ⟨rfl, rfl, rfl⟩
    simp only [Link.greet, held]
    split
    · have configured : (link.emit client .ready).Retires Effect.Steering
          ((link.emit client .ready).emit client (.configure link.server.settings)) :=
        .emit held ⟨rfl, rfl, rfl⟩
      exact ⟨ready.trans (configured.trans (.markStarted _)), rfl, by simp [Link.emit, held]⟩
    · exact ⟨ready.trans (.markStarted _), rfl, by simp [Link.emit, held]⟩

theorem afterHandshake (link : Link) (reply : Reply) :
    link.Ventures (link.afterHandshake reply) := by
  cases reply with
  | hold key => exact ⟨.refl link, rfl, by simp [Link.afterHandshake]⟩
  | failure reason => exact giveUp link reason
  | result answer => exact greet link

theorem handshake (link : Link) (root : Option String) : link.Ventures (link.handshake root) := by
  simp only [Link.handshake]
  cases rootUri? root with
  | error fault => exact ⟨.refl link, rfl, by simp⟩
  | ok uri =>
    cases held : link.server.client with
    | none => exact giveUp link _
    | some client =>
      exact preceded (retires_asking held ⟨rfl, rfl, rfl⟩ _) rfl (afterHandshake _ _)

theorem afterSpawn (link : Link) (root : Option String) (reply : Reply) :
    link.Ventures (link.afterSpawn root reply) := by
  cases reply with
  | hold key => exact ⟨.refl link, rfl, by simp [Link.afterSpawn]⟩
  | failure reason =>
    refine ⟨(Retires.log trivial).trans ((Retires.dropClient _).trans (.markFailed _)), rfl, ?_⟩
    simp [Link.afterSpawn]
  | result answer => exact handshake link root

theorem resumeStart (link : Link) (stage : LaunchStage) (reply : Reply) :
    link.Ventures (link.resumeStart stage reply) := by
  cases stage with
  | spawn root => exact afterSpawn link root reply
  | handshake => exact afterHandshake link reply
  | giveUp stage => exact afterGiveUp (.resumeHalt link stage reply)

end Ventures

/-- A start that is not over at once goes on once the new client was told to spawn the server. -/
def spawning (link : Link) : Link :=
  ((link.newClient.emit link.wire.clients (.spawn link.server.command)).take .spawn).2

theorem Ventures.start (stopped : link.server.started = false) (root : Option String) :
    link.spawning.Ventures (link.start root) := by
  simp only [Link.start, stopped, Bool.false_eq_true, if_false]
  exact afterSpawn _ root _

end Link

end LanguageBridge
