import LanguageBridge.Child.Session
import LanguageBridge.Proofs.Child.Documents

namespace LanguageBridge

/-! Settings, and what a child server sends of its own accord. Neither starts or stops a server, and
nothing is said about documents. -/

/-- Tasks in which a child server is neither started nor stopped. -/
def ChildTask.Serves : ChildTask → Prop
  | .start _ | .stop _ => False
  | _ => True

/-- If a task goes on waiting, it waits in such a task. -/
def Attempt.Serves (attempt : ChildAttempt) : Prop :=
  ∀ key task, attempt = .blocked key task → task.Serves

theorem Attempt.widen_serves {σ α : Type} {attempt : Attempt σ α} {stage : σ → ChildTask}
    (serves : ∀ reached, (stage reached).Serves) (result : α → Response) :
    (attempt.widen stage result).Serves := by
  intro key task blocked
  cases attempt with
  | done outcome => cases blocked
  | blocked held reached =>
    cases blocked
    exact serves reached

namespace Link

/-- What no child server notices. -/
structure Aside (before after : Link) : Prop where
  server : after.server = before.server
  clients : after.wire.clients = before.wire.clients
  effects : before.wire.Adds Effect.Silent after.wire

namespace Aside

theorem refl (link : Link) : link.Aside link :=
  ⟨rfl, rfl, .refl _⟩

theorem askEditor (link : Link) (shown : EditorCall) (call : Call) :
    link.Aside (link.askEditor shown call).2 := by
  obtain ⟨effects, clients⟩ := (link.wire.emit (.called shown)).take_unseen .editor call
  have called : link.wire.Adds Effect.Silent (link.wire.emit (.called shown)) :=
    .emit _ trivial
  exact ⟨rfl, clients, called.trans (.of_effects effects)⟩

theorem noteToken (link : Link) (token value : Value) : link.Aside (link.noteToken token value) := by
  unfold Link.noteToken
  split
  · exact ⟨rfl, rfl, .of_effects rfl⟩
  · exact .refl link

theorem progress (link : Link) (token value : Value) : link.Aside (link.progress token value) := by
  unfold Link.progress
  split
  · exact .refl link
  · exact askEditor link _ _
  · exact noteToken link token value

theorem createProgress (link : Link) (token : Value) : link.Aside (link.createProgress token).1 := by
  unfold Link.createProgress
  split
  · exact .refl link
  · exact askEditor link _ _
  · exact .refl link

theorem configuration (link : Link) (params : Value) :
    link.Aside (link.configuration params).1 := by
  unfold Link.configuration
  split
  · exact askEditor link _ _
  · exact .refl link
  · exact .refl link

theorem receive (link : Link) (message : Inbound) : link.Aside (link.receive message).1 := by
  cases message with
  | configuration params => exact configuration link params
  | logMessage severity text => exact ⟨rfl, rfl, .emit _ trivial⟩
  | createProgress token => exact createProgress link token
  | progress token value => exact progress link token value
  | _ => exact .refl link

end Aside

theorem receive_serves (link : Link) (message : Inbound) : (link.receive message).2.Serves := by
  cases message with
  | configuration params =>
    refine Attempt.widen_serves ?_ _
    exact fun _ => trivial
  | createProgress token =>
    refine Attempt.widen_serves ?_ _
    exact fun _ => trivial
  | _ => exact fun _ _ blocked => by cases blocked

theorem resume_serving {task : ChildTask} (serves : task.Serves) (link : Link) (reply : Reply) :
    link.Aside (task.resume link reply).1 ∧ (task.resume link reply).2.Serves := by
  cases task with
  | start stage => contradiction
  | stop stage => contradiction
  | _ =>
    refine ⟨.refl link, Attempt.widen_serves ?_ _⟩
    exact fun _ => trivial

/-! ### Settings -/

theorem updateSettings_retires (link : Link) (settings : Value) :
    link.Retires Effect.Steering (link.updateSettings settings) ∧
      (link.updateSettings settings).server.client = link.server.client ∧
        (link.updateSettings settings).marks = link.marks := by
  unfold updateSettings
  generalize isKept : (if settings.isMap then
    { link with server := { link.server with settings := settings } } else link) = kept
  have same : link.Retires Effect.Steering kept ∧ kept.server.client = link.server.client ∧
      kept.marks = link.marks := by
    split at isKept
    · subst isKept
      exact ⟨{ Retires.refl link with
        bounded := fun bounded => ⟨bounded.effects, bounded.client⟩ }, rfl, rfl⟩
    · subst isKept
      exact ⟨.refl link, rfl, rfl⟩
  obtain ⟨retires, client, marks⟩ := same
  dsimp only
  split
  · exact ⟨retires, client, marks⟩
  · rename_i present up
    have held := (client?_eq_some.mp up).2
    exact ⟨retires.trans (.emit held ⟨rfl, rfl, rfl⟩), client, marks⟩

end Link

end LanguageBridge
