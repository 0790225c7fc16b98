import LanguageBridge.Proofs.Child.Messages

namespace LanguageBridge

/-! What goes over the wire while child servers are started, stopped, asked and listened to, whatever
state they are in: nothing about documents, and nothing is published. A client is created and a server
spawned only where a start begins. -/

namespace Effect

/-- Neither a document nor the beginning of a start, and nothing for the editor to show. -/
def Routine : Effect → Prop
  | sent _ _ message => message.isNotice = false ∧ message.isStart = false
  | published _ _ => False
  | _ => True

/-- The same, where a start may begin. -/
def Unnoticed : Effect → Prop
  | sent _ _ message => message.isNotice = false
  | published _ _ => False
  | _ => True

theorem Routine.unnoticed {effect : Effect} (routine : effect.Routine) : effect.Unnoticed := by
  cases effect with
  | sent language client message => exact routine.1
  | _ => exact routine

theorem Steering.routine {effect : Effect} (steering : effect.Steering) : effect.Routine := by
  cases effect with
  | sent language client message => exact ⟨steering.1, steering.2.2⟩
  | published uri diagnostics => exact steering
  | _ => trivial

theorem Unnoticed.quiet {effect : Effect} (unnoticed : effect.Unnoticed) : effect.Quiet := by
  cases effect with
  | sent language client message => exact unnoticed
  | _ => trivial

end Effect

namespace Link

/-- A link on which nothing but routine goes on. -/
def Routine (before after : Link) : Prop :=
  before.wire.Adds Effect.Routine after.wire

namespace Routine

variable {before middle after link : Link} {client : Nat} {message : ChildMessage}

theorem refl (link : Link) : link.Routine link :=
  Wire.Adds.refl _

theorem trans (first : before.Routine middle) (second : middle.Routine after) :
    before.Routine after :=
  Wire.Adds.trans first second

theorem take (link : Link) (call : Call) : link.Routine (link.take call).2 :=
  .of_effects (link.wire.take_unseen _ call).1

theorem emit (link : Link) (client : Nat)
    (plain : message.isNotice = false ∧ message.isStart = false) :
    link.Routine (link.emit client message) :=
  Wire.Adds.emit _ plain

theorem log (link : Link) (severity : Severity) (text : String) :
    link.Routine (link.log severity text) :=
  Wire.Adds.emit _ trivial

theorem askEditor (link : Link) (shown : EditorCall) (call : Call) :
    link.Routine (link.askEditor shown call).2 := by
  have called : link.wire.Adds Effect.Routine (link.wire.emit (.called shown)) := .emit _ trivial
  exact called.trans (.of_effects ((link.wire.emit (.called shown)).take_unseen .editor call).1)

/-! ### Starting and stopping -/

theorem of_retires (retires : before.Retires Effect.Steering after) : before.Routine after :=
  retires.effects.mono fun _ => Effect.Steering.routine

theorem afterHalt {halted : Link × Attempt HaltStage Unit} (halts : link.Halts halted) :
    link.Routine (Link.afterHalt halted).1 := by
  have routine : link.Routine halted.1 := of_retires halts.retires
  unfold Link.afterHalt
  split <;> exact routine

theorem stop (link : Link) : link.Routine link.stop.1 :=
  afterHalt (.halt link)

theorem resumeStop (link : Link) (stage : HaltStage) (reply : Reply) :
    link.Routine (link.resumeStop stage reply).1 :=
  afterHalt (.resumeHalt link stage reply)

theorem resumeStart (link : Link) (stage : LaunchStage) (reply : Reply) :
    link.Routine (link.resumeStart stage reply).1 :=
  of_retires (Ventures.resumeStart link stage reply).retires

/-! ### Asking and listening -/

theorem request (link : Link) (method : Method) (params : Params) :
    link.Routine (link.request method params).1 := by
  unfold Link.request
  split
  · exact refl link
  · split
    · exact refl link
    · exact (emit link _ ⟨rfl, rfl⟩).trans (take _ _)

theorem updateSettings (link : Link) (settings : Value) :
    link.Routine (link.updateSettings settings) :=
  of_retires (link.updateSettings_retires settings).1

theorem progress (link : Link) (token value : Value) :
    link.Routine (link.progress token value) := by
  unfold Link.progress
  split
  · exact refl link
  · exact askEditor link _ _
  · unfold Link.noteToken
    split <;> exact refl link

theorem createProgress (link : Link) (token : Value) :
    link.Routine (link.createProgress token).1 := by
  unfold Link.createProgress
  split
  · exact refl link
  · exact askEditor link _ _
  · exact refl link

theorem configuration (link : Link) (params : Value) :
    link.Routine (link.configuration params).1 := by
  unfold Link.configuration
  split
  · exact askEditor link _ _
  · exact refl link
  · exact refl link

theorem receive (link : Link) (message : Inbound) : link.Routine (link.receive message).1 := by
  cases message with
  | configuration params => exact configuration link params
  | logMessage severity text => exact log link _ _
  | createProgress token => exact createProgress link token
  | progress token value => exact progress link token value
  | _ => exact refl link

theorem resume (link : Link) (task : ChildTask) (reply : Reply) :
    link.Routine (task.resume link reply).1 := by
  cases task with
  | start stage => exact resumeStart link stage reply
  | stop stage => exact resumeStop link stage reply
  | _ => exact refl link

end Routine

/-- A start begins with a client and a spawn, in a server that is not up. -/
theorem start_adds (link : Link) (root : Option String) :
    (link.server.started = true ∧ (link.start root).1 = link) ∨
    (link.server.started = false ∧
      ∃ more, (∀ effect ∈ more, effect.Routine) ∧
        (link.start root).1.wire.effects = link.wire.effects ++
          (.sent link.server.language link.wire.clients
              (.create (bridgeName ++ "-" ++ link.server.language)) ::
            .sent link.server.language link.wire.clients (.spawn link.server.command) :: more)) := by
  cases up : link.server.started with
  | true => exact Or.inl ⟨rfl, by simp [start, up]⟩
  | false =>
    refine Or.inr ⟨rfl, ?_⟩
    simp only [start, up, Bool.false_eq_true, if_false]
    obtain ⟨more, same, routine⟩ :=
      (Routine.take (link.newClient.emit link.wire.clients (.spawn link.server.command))
        .spawn).trans (.of_retires (Ventures.afterSpawn _ root _).retires)
    refine ⟨more, routine, same.trans ?_⟩
    simp [emit, newClient, Wire.emit]

theorem start_unnoticed (link : Link) (root : Option String) :
    link.wire.Adds Effect.Unnoticed (link.start root).1.wire := by
  rcases link.start_adds root with ⟨_, same⟩ | ⟨_, more, routine, added⟩
  · rw [same]
    exact .refl _
  · refine ⟨_, added, ?_⟩
    intro effect member
    rcases List.mem_cons.mp member with rfl | member
    · rfl
    · rcases List.mem_cons.mp member with rfl | member
      · rfl
      · exact (routine effect member).unnoticed

end Link

/-! ### What leaves a server where it stands -/

def Effect.Unstarted : Effect → Prop
  | sent _ _ message => message.isStart = false
  | _ => True

theorem Effect.Routine.unstarted {effect : Effect} (routine : effect.Routine) :
    effect.Unstarted := by
  cases effect with
  | sent language client message => exact routine.2
  | published uri diagnostics => trivial
  | _ => exact routine

/-- What changes only when a server is started or stopped. -/
structure Standing where
  language : String
  client : Option Nat
  started : Bool
  failed : Bool

def ChildServer.standing (server : ChildServer) : Standing :=
  ⟨server.language, server.client, server.started, server.failed⟩

namespace Link

/-- The server is started as far as before, and nothing is said that belongs to a start. -/
structure Unmoved (before after : Link) : Prop where
  standing : after.server.standing = before.server.standing
  effects : before.wire.Adds Effect.Unstarted after.wire

namespace Unmoved

theorem refl (link : Link) : link.Unmoved link :=
  ⟨rfl, .refl _⟩

theorem of_routine {before after : Link} (routine : before.Routine after)
    (standing : after.server.standing = before.server.standing) : before.Unmoved after :=
  ⟨standing, Wire.Adds.mono (fun _ => Effect.Routine.unstarted) routine⟩

theorem request (link : Link) (method : Method) (params : Params) :
    link.Unmoved (link.request method params).1 := by
  refine of_routine (.request link method params) ?_
  unfold Link.request
  split
  · rfl
  · split <;> rfl

theorem syncDocument (link : Link) (aliasUri text : String) (version : Int) :
    link.Unmoved (link.syncDocument aliasUri text version) := by
  unfold Link.syncDocument
  split
  · exact refl link
  · split
    · exact ⟨rfl, .emit _ rfl⟩
    · split
      · exact refl link
      · exact ⟨rfl, .emit _ rfl⟩

theorem closeDocument (link : Link) (aliasUri : String) :
    link.Unmoved (link.closeDocument aliasUri) := by
  unfold Link.closeDocument
  split
  · dsimp only
    split
    · exact ⟨rfl, .refl _⟩
    · exact ⟨rfl, .emit _ rfl⟩
  · exact refl link

theorem updateSettings (link : Link) (settings : Value) :
    link.Unmoved (link.updateSettings settings) := by
  refine of_routine (.updateSettings link settings) ?_
  obtain ⟨_, client, marks⟩ := link.updateSettings_retires settings
  simp only [Link.marks, Prod.mk.injEq] at marks
  simp only [ChildServer.standing, client, marks]

theorem receive (link : Link) (message : Inbound) : link.Unmoved (link.receive message).1 :=
  of_routine (.receive link message) (by rw [(Aside.receive link message).server])

theorem resume {task : ChildTask} (serves : task.Serves) (link : Link) (reply : Reply) :
    link.Unmoved (task.resume link reply).1 :=
  of_routine (.resume link task reply) (by rw [(resume_serving serves link reply).1.server])

end Unmoved

end Link

end LanguageBridge
