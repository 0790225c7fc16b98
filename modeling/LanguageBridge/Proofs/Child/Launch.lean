import LanguageBridge.Proofs.Child.Retiring

namespace LanguageBridge

/-! Starting a child server says nothing about documents, and a start that fails for good leaves the
server as it was. -/

namespace Link

/-- A link on which things of one kind went on that left the documents alone. While the server is
up it keeps its client. -/
structure Extends (kind : Effect → Prop) (before after : Link) : Prop where
  language : after.server.language = before.server.language
  openDocuments : after.server.openDocuments = before.server.openDocuments
  started : before.server.started = true → after.server.started = true
  client : ∀ client, after.server.client = some client →
    before.server.client = some client ∨
      (before.wire.clients ≤ client ∧ before.server.started = false)
  kept : before.server.started = true → after.server.client = before.server.client
  clients : before.wire.clients ≤ after.wire.clients
  effects : before.wire.Adds kind after.wire
  bounded : before.Bounded → after.Bounded

variable {kind other : Effect → Prop} {before middle after link : Link}

theorem Retires.extends (retires : before.Retires kind after)
    (weaker : ∀ effect, kind effect → other effect)
    (kept : before.server.started = true → after.server.client = before.server.client) :
    before.Extends other after :=
  { retires with
    client := fun client held => Or.inl (retires.client client held)
    kept
    effects := retires.effects.mono weaker }

theorem Extends.retires (extended : before.Extends kind after)
    (same : after.server.client = before.server.client) : before.Retires kind after :=
  { extended with client := fun _ held => same ▸ held }

namespace Extends

theorem refl (link : Link) : link.Extends kind link :=
  (Retires.refl link).extends (fun _ => id) fun _ => rfl

theorem trans (first : before.Extends kind middle) (second : middle.Extends kind after) :
    before.Extends kind after where
  language := second.language.trans first.language
  openDocuments := second.openDocuments.trans first.openDocuments
  started := fun up => second.started (first.started up)
  client := by
    intro client held
    rcases second.client client held with held | ⟨fresh, stopped⟩
    · exact first.client client held
    · refine Or.inr ⟨Nat.le_trans first.clients fresh, ?_⟩
      cases up : before.server.started with
      | false => rfl
      | true => rw [first.started up] at stopped; contradiction
  kept := fun up => (second.kept (first.started up)).trans (first.kept up)
  clients := Nat.le_trans first.clients second.clients
  effects := first.effects.trans second.effects
  bounded := fun bounded => second.bounded (first.bounded bounded)

theorem newClient (stopped : link.server.started = false) :
    link.Extends Effect.Plain link.newClient where
  language := rfl
  openDocuments := rfl
  started := id
  client := by
    intro client held
    cases held
    exact Or.inr ⟨Nat.le_refl _, stopped⟩
  kept := by
    intro up
    rw [stopped] at up
    contradiction
  clients := Nat.le_succ _
  effects := .emit _ ⟨rfl, rfl⟩
  bounded := by
    intro bounded
    constructor
    · intro effect member
      rcases List.mem_append.mp member with old | new
      · exact (bounded.effects effect old).mono (Nat.le_succ _)
      · rw [List.mem_singleton.mp new]
        exact Nat.lt_succ_self _
    · intro client held
      cases held
      exact Nat.lt_succ_self _

end Extends

theorem Ventures.extended {result : Link × Attempt LaunchStage Bool}
    (ventures : link.Ventures result) (stopped : link.server.started = false) :
    link.Extends Effect.Plain result.1 :=
  ventures.retires.extends (fun _ => Effect.Steering.plain) fun up => by
    rw [stopped] at up
    contradiction

/-! ### Starting -/

/-- A root that child servers can be told. -/
def RootKnown (root : Option String) : Prop :=
  ∃ uri, rootUri? root = .ok uri

/-- What is true of a server while its start waits at some stage. -/
def Waiting (root : Option String) (link : Link) (stage : LaunchStage) : Prop :=
  link.server.started = false ∧
    match stage with
    | .spawn told => told = root ∧ link.server.client.isSome
    | .handshake => RootKnown root ∧ link.server.client.isSome
    | .giveUp _ => True

/-- What it takes for a server to be up. -/
def Ready (root : Option String) (link : Link) : Prop :=
  RootKnown root ∧ link.server.client.isSome

/-- How far a start can have come. It raises only where the root cannot be told. -/
def Arrived (root : Option String) (before after : Link) : Attempt LaunchStage Bool → Prop
  | .blocked _ stage => after.Waiting root stage ∧ after.server.started = before.server.started
  | .done (.ok true) => after.Ready root
  | .done (.ok false) => after.server.started = before.server.started
  | .done (.error _) => ¬ RootKnown root ∧ after.server.started = before.server.started

structure Launches (root : Option String) (before : Link)
    (result : Link × Attempt LaunchStage Bool) : Prop where
  extended : before.Extends Effect.Plain result.1
  arrived : before.Arrived root result.1 result.2

variable {root : Option String}

section Start

variable (stopped : link.server.started = false)
include stopped

theorem giveUp_arrived {halted : Link × Attempt HaltStage Unit} (halts : link.Halts halted) :
    link.Arrived root (afterGiveUp halted).1 (afterGiveUp halted).2 := by
  obtain ⟨given, attempt⟩ := halted
  have same : given.server.started = link.server.started :=
    congrArg (fun marks => marks.2.1) halts.marks
  cases attempt with
  | done outcome => exact same
  | blocked key stage => exact ⟨⟨same.trans stopped, trivial⟩, same⟩

variable (link) in
theorem afterHandshake_arrived (ready : link.Ready root) (reply : Reply) :
    link.Arrived root (link.afterHandshake reply).1 (link.afterHandshake reply).2 := by
  cases reply with
  | hold key => exact ⟨⟨stopped, ready⟩, rfl⟩
  | failure reason => exact giveUp_arrived stopped (.preceded (.log trivial) rfl rfl (.halt _))
  | result answer =>
    obtain ⟨client, held⟩ := Option.isSome_iff_exists.mp ready.2
    simp only [afterHandshake, greet, held]
    split <;> exact ready

theorem handshake_arrived :
    link.Arrived root (link.handshake root).1 (link.handshake root).2 := by
  unfold handshake
  cases known : rootUri? root with
  | error fault =>
    refine ⟨?_, rfl⟩
    rintro ⟨uri, told⟩
    rw [known] at told
    contradiction
  | ok uri =>
    cases held : link.server.client with
    | none => exact giveUp_arrived stopped (.preceded (.log trivial) rfl rfl (.halt _))
    | some client =>
      have ready : link.Ready root := ⟨⟨uri, known⟩, by simp [held]⟩
      exact afterHandshake_arrived ((link.emit client _).take .handshake).2 stopped ready _

variable (link) in
theorem afterSpawn_arrived (held : link.server.client.isSome) (reply : Reply) :
    link.Arrived root (link.afterSpawn root reply).1 (link.afterSpawn root reply).2 := by
  cases reply with
  | hold key => exact ⟨⟨stopped, rfl, held⟩, rfl⟩
  | failure reason => exact rfl
  | result answer => exact handshake_arrived stopped

end Start

theorem start_launches (up : link.server.started = true → link.Ready root) :
    link.Launches root (link.start root) := by
  cases started : link.server.started with
  | true =>
    simp only [start, started, if_true]
    exact ⟨.refl _, up started⟩
  | false =>
    have spawning : link.Extends Effect.Plain link.spawning :=
      (Extends.newClient started).trans
        ((retires_asking rfl ⟨rfl, rfl⟩ _).extends (fun _ => id) fun _ => rfl)
    refine ⟨spawning.trans ((Ventures.start started root).extended started), ?_⟩
    simp only [start, started, Bool.false_eq_true, if_false]
    exact link.spawning.afterSpawn_arrived started rfl _

theorem resumeStart_launches {stage : LaunchStage} (waiting : link.Waiting root stage)
    (reply : Reply) : link.Launches root (link.resumeStart stage reply) := by
  obtain ⟨stopped, reached⟩ := waiting
  refine ⟨(Ventures.resumeStart link stage reply).extended stopped, ?_⟩
  cases stage with
  | spawn told =>
    obtain ⟨rfl, held⟩ := reached
    exact link.afterSpawn_arrived stopped held reply
  | handshake => exact link.afterHandshake_arrived stopped reached reply
  | giveUp stage => exact giveUp_arrived stopped (.resumeHalt link stage reply)

/-! ### How a start ends -/

theorem start_verdict (link : Link) (root : Option String) :
    Verdict link.marks (link.start root).1 (link.start root).2 := by
  cases up : link.server.started with
  | true => simp [start, Verdict, marks, up]
  | false => exact (Ventures.start up root).verdict

end Link

end LanguageBridge
