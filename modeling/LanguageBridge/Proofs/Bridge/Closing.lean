import LanguageBridge.Proofs.Bridge.Numbers
import LanguageBridge.Proofs.Bridge.Readiness

namespace LanguageBridge

/-! Nothing comes back of a host that was closed. -/

/-! ### Hosts that come and go -/

namespace Bridge

variable {bridge : Bridge}

/-- Only a document without a name keeps a host from being closed, if a child server knows its
language. -/
theorem closeDocuments_ok {host : String} {documents : List Document} (bridge : Bridge)
    (named : ∀ document ∈ documents, bridge.current.contains document.language →
      host ≠ "" ∧ document.language ≠ "") :
    (closeDocuments host documents bridge).2 = .ok () := by
  induction documents generalizing bridge with
  | nil => rfl
  | cons document rest ih =>
    obtain ⟨first, others⟩ := List.forall_mem_cons.mp named
    unfold closeDocuments
    cases known : bridge.current.get? document.language with
    | none => exact ih bridge others
    | some server =>
      obtain ⟨hostNamed, languageNamed⟩ := first (by simp [Table.contains, known])
      obtain ⟨aliasUri, encoded⟩ := Alias.exists_encode hostNamed languageNamed
      simp only [encoded]
      exact ih _ others

/-- A host that is closed leaves no diagnostics, and the editor is told that it has none. -/
theorem Orderly.closeHost (orderly : bridge.Orderly) (host : String) :
    (bridge.closeHost host).1.store = bridge.store.close host ∧
      (bridge.closeHost host).1.Orderly ∧
      ∃ more, (bridge.closeHost host).1.wire.effects = bridge.wire.effects ++ more ∧
        (∀ effect ∈ more, effect.Current (bridge.store.close host)) ∧
        (bridge.publishes = true → .published host [] ∈ more) := by
  have given : ∀ document ∈ bridge.store.documents host, host ≠ "" ∧ document.language ≠ "" :=
    fun document member => (orderly.store.named (orderly.store.get?_of_mem_documents member)).2
  rcases isClosed : closeDocuments host (bridge.store.documents host)
    { bridge with store := bridge.store.close host } with ⟨closed, outcome⟩
  have ended := closeDocuments_ok { bridge with store := bridge.store.close host }
    fun document member _ => given document member
  obtain ⟨store, diagnostics, _, publishes, more, same, current⟩ := closeDocuments_frame host
    (bridge.store.documents host) { bridge with store := bridge.store.close host }
  rw [isClosed] at ended store diagnostics publishes same
  cases ended
  have cleared : ({ closed with
      router := closed.router.forgetHost host
      diagnostics := closed.diagnostics.erase host } : Bridge).Orderly := by
    refine ⟨store ▸ orderly.store.close host, ?_⟩
    intro uri untracked
    rw [store, Store.close, Table.get?_erase] at untracked
    rw [diagnostics, Table.get?_erase]
    split
    · rfl
    · rename_i other
      rw [if_neg other] at untracked
      exact orderly.diagnostics uri untracked
  simp only [Bridge.closeHost, isClosed]
  unfold Bridge.announce
  split
  · refine ⟨store, ⟨cleared.store, cleared.diagnostics⟩, more ++ [.published host []], ?_, ?_, ?_⟩
    · rw [← List.append_assoc, ← same]
      rfl
    · intro effect member
      rcases List.mem_append.mp member with before | last
      · exact current effect before
      · rw [List.mem_singleton.mp last]
        exact Or.inl rfl
    · intro _
      simp
  · rename_i unpublished
    refine ⟨store, cleared, more, same, current, ?_⟩
    intro publishing
    exact absurd (publishes.trans publishing) unpublished

end Bridge

/-- Commands that open a host or edit it. -/
def BridgeEvent.Revives (host : String) : BridgeEvent → Prop
  | .command (.openHost uri _ _) | .command (.editHost uri _ _) => uri = host
  | _ => False

namespace Run

/-- No host and no language is without a name; apart from that, anything may happen. -/
def WellNamed (run : Run) : BridgeEvent → Prop
  | .command (.openHost uri text languageId) =>
    uri ≠ "" ∧
      ∀ language ∈ (run.bridge.store.openHost uri text languageId).languages uri, language ≠ ""
  | .command (.editHost uri text changed) =>
    uri ≠ "" ∧
      ∀ language ∈ (run.bridge.store.update uri text changed).languages uri, language ≠ ""
  | _ => True

structure Proceeds (event : BridgeEvent) (before after : Run) : Prop where
  orderly : after.bridge.Orderly
  effects : before.bridge.wire.Adds (Effect.Current after.bridge.store) after.bridge.wire
  untracked : ∀ host, ¬ event.Revives host → before.bridge.store.hosts.get? host = none →
    after.bridge.store.hosts.get? host = none
  settings : before.bridge.store.SameSettings after.bridge.store

variable {run before after : Run} {event : BridgeEvent}

theorem Proceeds.of_same (orderly : after.bridge.Orderly)
    (store : after.bridge.store = before.bridge.store)
    (effects : before.bridge.wire.Adds (Effect.Current before.bridge.store) after.bridge.wire) :
    Proceeds event before after := by
  refine ⟨orderly, store ▸ effects, ?_, store ▸ ⟨rfl, rfl, rfl⟩⟩
  rw [store]
  exact fun _ _ => id

/-- A host is opened or edited: what follows is about the store with that host in it. -/
theorem Proceeds.of_store (orderly : before.bridge.Orderly) {store : Store} {uri : String}
    {host : Host} (proper : store.Proper) (isStore : store = before.bridge.store.putHost uri host)
    (revives : event.Revives uri) (bridge : after.bridge = { before.bridge with store := store }) :
    Proceeds event before after := by
  have found : ∀ other, store.hosts.get? other =
      if other = uri then some host else before.bridge.store.hosts.get? other := by
    intro other
    rw [isStore, Store.putHost, Table.get?_put]
  constructor <;> rw [bridge]
  · refine ⟨proper, fun other untracked => ?_⟩
    change store.hosts.get? other = none at untracked
    rw [found] at untracked
    split at untracked
    · contradiction
    · exact orderly.diagnostics other untracked
  · exact .refl _
  · intro other spared untracked
    have different : other ≠ uri := fun isUri => spared (isUri ▸ revives)
    change store.hosts.get? other = none
    rw [found, if_neg different]
    exact untracked
  · exact isStore ▸ ⟨rfl, rfl, rfl⟩

/-- What an event does to hosts it does at its beginning. -/
theorem Proceeds.beginning (orderly : run.bridge.Orderly) (named : run.WellNamed event) :
    Proceeds event run (run.beginning event) := by
  have heard (publication : Option (Alias × List Diagnostic)) :=
    (run.bridge.hear_rests publication).orderly (orderly.holding publication)
  have told (publication : Option (Alias × List Diagnostic)) :=
    (run.bridge.hear_rests publication).effects (orderly.holding publication)
  cases event with
  | command command =>
    cases command with
    | openHost uri text languageId =>
      have proper := Store.openHost_proper orderly.store named.1 named.2
      exact .of_store orderly proper (Store.openHost_eq _ uri text languageId) rfl rfl
    | editHost uri text changed =>
      have proper := Store.update_proper orderly.store named.1 named.2
      obtain ⟨host, isStore⟩ := run.bridge.store.exists_update uri text changed
      exact .of_store orderly proper isStore rfl rfl
    | closeHost uri =>
      obtain ⟨store, orderlyAfter, more, same, current, _⟩ := orderly.closeHost uri
      refine ⟨orderlyAfter, ⟨more, same, fun effect member => store ▸ current effect member⟩, ?_,
        store ▸ ⟨rfl, rfl, rfl⟩⟩
      intro host _ untracked
      change (run.bridge.closeHost uri).1.store.hosts.get? host = none
      rw [store, Store.close, Table.get?_erase, untracked, ite_self]
    | receive language message =>
      exact .of_same (heard _) (Bridge.hear_rests _ _).store (told _)
    | diagnostics uri published =>
      exact .of_same (heard _) (Bridge.hear_rests _ _).store (told _)
    | _ => exact .of_same ⟨orderly.store, orderly.diagnostics⟩ rfl (.refl _)
  | _ => exact .of_same orderly rfl (.refl _)

theorem bridge_interruptGroup (run : Run) (task : Nat) (group : Group) :
    (run.interruptGroup task group).bridge = run.bridge := by
  unfold interruptGroup
  generalize group.members.filter run.tasks.contains = members
  exact List.foldlRecOn (motive := fun after : Run => after.bridge = run.bridge) members interrupt
    rfl fun _ same task _ => same

theorem bridge_withdraw? {task : Nat} (withdrawn : run.withdraw? task = some after) :
    after.bridge = run.bridge := by
  obtain ⟨_, _, rfl⟩ := Option.map_eq_some_iff.mp withdrawn
  split
  · exact run.bridge_interruptGroup task _
  · rfl

theorem proceeds (orderly : run.bridge.Orderly) (named : run.WellNamed event) :
    Proceeds event run (run.act event) := by
  have begun : Proceeds event run (run.beginning event) := .beginning orderly named
  have apart := run.apart_nothing event
  refine ⟨apart.orderly begun.orderly, ?_, ?_, ?_⟩ <;> rw [apart.store]
  · exact begun.effects.trans (apart.effects begun.orderly)
  · exact begun.untracked
  · exact begun.settings

section Reached

variable {config : Config} {padding : Padding} {names : LanguageNames} {rules : Option (List Rule)}
  {root : Option String} {publishes : Bool} {editor : Editor}

theorem reached_orderly {history : List BridgeEvent} (reached : Reached act WellNamed
      (fresh config padding names rules root publishes editor) history run) :
    run.bridge.Orderly :=
  reached.invariant (fun run => run.bridge.Orderly)
    ⟨Store.fresh_proper padding names rules, fun _ _ => rfl⟩
    fun _ _ named orderly => (proceeds orderly named).orderly

end Reached

end Run

/-! ### A host that is closed -/

/-- Nothing that would bring a host back: no alias of it, however it is spelt, is opened or changed at
a child server, and what is published for it is empty. -/
def Effect.Spares (host : String) : Effect → Prop
  | sent _ _ (.didOpen aliasUri _ _ _) | sent _ _ (.didChange aliasUri _ _) =>
    ∀ source, Alias.parse? aliasUri = some source → source.host ≠ host
  | published uri diagnostics => uri = host → diagnostics = []
  | _ => True

theorem Effect.Current.spares {store : Store} {host : String} {effect : Effect}
    (current : effect.Current store) (untracked : store.hosts.get? host = none) :
    effect.Spares host := by
  have apart : ∀ {aliasUri : String}, (∃ other language document,
      store.get? other language = some document ∧ Alias.encode other language = .ok aliasUri) →
      ∀ source, Alias.parse? aliasUri = some source → source.host ≠ host := by
    intro aliasUri told source parsed same
    obtain ⟨other, language, document, held, encoded⟩ := told
    cases (Alias.parse?_encode encoded).symm.trans parsed
    cases same
    simp [Store.get?, untracked] at held
  cases effect with
  | sent language client message =>
    cases message with
    | didOpen => exact apart current
    | didChange => exact apart current
    | _ => trivial
  | published uri diagnostics =>
    intro same
    subst same
    exact current.resolve_right (by simp [untracked])
  | _ => trivial

namespace Run

section Closed

variable {config : Config} {padding : Padding} {names : LanguageNames} {rules : Option (List Rule)}
  {root : Option String} {publishes : Bool} {editor : Editor} {before after : Run}
  {earlier later : List BridgeEvent}

/-- Once a host is closed, and until it is opened or edited again, no child server is told to open or
change a document of it, and the editor gets nothing to show for it, whatever handlers, starts and
child servers were under way. -/
theorem closed_host_stays_gone (host : String)
    (reached : Reached act WellNamed
      (fresh config padding names rules root publishes editor) earlier before)
    (closed : Reached act (fun run event => run.WellNamed event ∧ ¬ event.Revives host)
      (before.act (.command (.closeHost host))) later after) :
    ∃ more, after.bridge.wire.effects = before.bridge.wire.effects ++ more ∧
      (∀ effect ∈ more, effect.Spares host) ∧
      (before.bridge.publishes = true → .published host [] ∈ more) := by
  have orderly := reached_orderly reached
  obtain ⟨store, orderlyClosed, first, isFirst, current, told⟩ := orderly.closeHost host
  have gone : (before.bridge.store.close host).hosts.get? host = none := by
    rw [Store.close, Table.get?_erase, if_pos rfl]
  -- from here on the host stays out of the store, and each event speaks about the store it leaves
  obtain ⟨_, _, more, isMore, spared⟩ : after.bridge.Orderly ∧
      after.bridge.store.hosts.get? host = none ∧
      (before.act (.command (.closeHost host))).bridge.wire.Adds (Effect.Spares host)
        after.bridge.wire := by
    refine closed.invariant (fun run => run.bridge.Orderly ∧
      run.bridge.store.hosts.get? host = none ∧
      (before.act (.command (.closeHost host))).bridge.wire.Adds (Effect.Spares host)
        run.bridge.wire) ⟨orderlyClosed, store ▸ gone, .refl _⟩ ?_
    intro run event allowed held
    obtain ⟨orderlyRun, untracked, effects⟩ := held
    have step := proceeds orderlyRun allowed.1
    have still := step.untracked host allowed.2 untracked
    exact ⟨step.orderly, still, effects.trans (step.effects.mono fun _ now => now.spares still)⟩
  refine ⟨first ++ more, ?_, ?_, fun publishing => List.mem_append_left more (told publishing)⟩
  · rw [isMore, ← List.append_assoc, ← isFirst]
    rfl
  · intro effect member
    rcases List.mem_append.mp member with atClose | after
    · exact (current effect atClose).spares gone
    · exact spared effect after

end Closed

/-! ### A handler that comes too late

The handler of the second host is waiting for a child server when its host is closed. The server comes
up after that, and another one publishes diagnostics for the host, under an alias that is spelt in
another way. -/

def closedMeanwhile : Run :=
  twoHosts.act (.command (.closeHost "b"))

def lateDiagnostics : BridgeCommand :=
  .diagnostics "otter://%62/python" (.list [Diagnostic.toValue { range := ⟨⟨0, 0⟩, ⟨0, 1⟩⟩ }])

def handlerTooLate : Run :=
  ((closedMeanwhile.release "slow" (.result .null)).2.submit lateDiagnostics).2

theorem Admits.wellNamed {run : Run} {event : BridgeEvent} (admitted : run.Admits event) :
    run.WellNamed event := by
  cases event with
  | command command =>
    cases command with
    | openHost uri text languageId => exact ⟨admitted.1, admitted.2.2⟩
    | editHost uri text changed => exact admitted
    | _ => trivial
  | _ => trivial

/-- What is seen of it. The handler finds nothing to bring anywhere, and publishes that there is
nothing. -/
def seenTooLate : List Effect :=
  [.published "b" [], .sent "json" 1 (.handshake none "" none), .sent "json" 1 .ready,
    .published "b" []]

theorem closed_host_stays_gone_of_late_handler :
    twoHosts.tasks.get? 2 = some (.syncing "b" "json" ["python"]) ∧
    Alias.parse? "otter://%62/python" = some ⟨"b", "python"⟩ ∧
    handlerTooLate.bridge.wire.effects = twoHosts.bridge.wire.effects ++ seenTooLate ∧
    (∀ effect ∈ seenTooLate, effect.Spares "b") ∧ .published "b" [] ∈ seenTooLate := by
  have waiting : twoHosts.tasks.get? 2 = some (.syncing "b" "json" ["python"]) := by cbv
  have spelt : Alias.parse? "otter://%62/python" = some ⟨"b", "python"⟩ := by cbv
  have publishing : twoHosts.bridge.publishes = true := by cbv
  have seen : handlerTooLate.bridge.wire.effects = twoHosts.bridge.wire.effects ++ seenTooLate := by
    rw [twoHosts_effects]
    cbv
  obtain ⟨_, reached⟩ := twoHosts_reached
  have named := reached.mono fun _ _ => Admits.wellNamed
  have closing : Reached act (fun run event => run.WellNamed event ∧ ¬ event.Revives "b")
      closedMeanwhile [] closedMeanwhile := .start
  obtain ⟨_, released⟩ := reached_release (fun _ => ⟨trivial, id⟩) closing "slow"
    (.result .null) ⟨trivial, id⟩
  obtain ⟨_, late⟩ := reached_submit (fun _ => ⟨trivial, id⟩) released lateDiagnostics
    ⟨trivial, id⟩
  obtain ⟨more, same, spared, told⟩ := closed_host_stays_gone "b" named late
  cases List.append_cancel_left (seen.symm.trans same)
  exact ⟨waiting, spelt, seen, spared, told publishing⟩

end Run

end LanguageBridge
