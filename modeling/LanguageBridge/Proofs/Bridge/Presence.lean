import LanguageBridge.Proofs.Addressing
import LanguageBridge.Proofs.Bridge.Hosts
import LanguageBridge.Proofs.Child.Routine

namespace LanguageBridge

/-! What is said about a document is said about one that is there at that moment, whoever says it: a
handler that was suspended, a server that has just started, a child server that publishes late. -/

/-- What is told about documents is about those of the store, and only hosts of the store have
anything to show. -/
def Effect.Current (store : Store) : Effect → Prop
  | sent _ _ (.didOpen aliasUri _ _ _) | sent _ _ (.didChange aliasUri _ _) =>
    ∃ host language document, store.get? host language = some document ∧
      Alias.encode host language = .ok aliasUri
  | published uri diagnostics => diagnostics = [] ∨ (store.hosts.get? uri).isSome
  | _ => True

theorem Effect.Unnoticed.current {effect : Effect} (unnoticed : effect.Unnoticed) (store : Store) :
    effect.Current store := by
  cases effect with
  | sent language client message => cases message <;> trivial
  | published uri diagnostics => exact unnoticed.elim
  | _ => trivial

theorem Link.closeDocument_adds (link : Link) (aliasUri : String) (store : Store) :
    link.wire.Adds (Effect.Current store) (link.closeDocument aliasUri).wire := by
  unfold Link.closeDocument
  split
  · dsimp only
    split
    · exact .refl _
    · exact .emit _ trivial
  · exact .refl _

namespace Bridge

/-- Documents stand under their names, and no diagnostics are kept of hosts that are not open. -/
structure Orderly (bridge : Bridge) : Prop where
  store : bridge.store.Proper
  diagnostics : ∀ uri, bridge.store.hosts.get? uri = none → bridge.diagnostics.get? uri = none

/-- The hosts stay as they are, with all that is held of them, and so do the requests. What is said is
about these hosts. -/
structure Rests (before after : Bridge) : Prop where
  store : after.store = before.store
  diagnostics : after.diagnostics = before.diagnostics
  router : after.router = before.router
  effects : before.Orderly → before.wire.Adds (Effect.Current before.store) after.wire

variable {bridge before middle after : Bridge}

theorem Orderly.of_same (orderly : before.Orderly) (store : after.store = before.store)
    (diagnostics : after.diagnostics = before.diagnostics) : after.Orderly := by
  refine ⟨store ▸ orderly.store, ?_⟩
  rw [store, diagnostics]
  exact orderly.diagnostics

namespace Rests

theorem refl (bridge : Bridge) : bridge.Rests bridge :=
  ⟨rfl, rfl, rfl, fun _ => .refl _⟩

theorem orderly (rests : before.Rests after) (orderly : before.Orderly) : after.Orderly :=
  orderly.of_same rests.store rests.diagnostics

theorem trans (first : before.Rests middle) (second : middle.Rests after) : before.Rests after where
  store := second.store.trans first.store
  diagnostics := second.diagnostics.trans first.diagnostics
  router := second.router.trans first.router
  effects := fun orderly =>
    (first.effects orderly).trans (first.store ▸ second.effects (first.orderly orderly))

theorem setLink {server : Nat} {link : Link}
    (effects : bridge.wire.Adds Effect.Unnoticed link.wire) :
    bridge.Rests (bridge.setLink server link) :=
  ⟨rfl, rfl, rfl, fun _ => effects.mono fun _ unnoticed => unnoticed.current _⟩

theorem routine {server : Nat} {link : Link} (routine : (bridge.link server).Routine link) :
    bridge.Rests (bridge.setLink server link) :=
  setLink (routine.mono fun _ => Effect.Routine.unnoticed)

/-! ### Publishing -/

theorem announce {uri : String} {diagnostics : List Diagnostic}
    (known : bridge.Orderly → diagnostics = [] ∨ (bridge.store.hosts.get? uri).isSome) :
    bridge.Rests (bridge.announce uri diagnostics) := by
  unfold Bridge.announce
  split
  · refine ⟨rfl, rfl, rfl, fun orderly => .emit _ ?_⟩
    exact (known orderly).imp_left fun none => by rw [none, List.map_nil]
  · exact refl bridge

theorem publish (bridge : Bridge) (uri : String) : bridge.Rests (bridge.publish uri) := by
  refine announce fun orderly => ?_
  cases tracked : bridge.store.hosts.get? uri with
  | some host => exact Or.inr rfl
  | none =>
    have none := orderly.diagnostics uri tracked
    exact Or.inl (by simp [diagnosticsOf, Store.malformed, tracked, none, Table.values])

/-! ### Documents -/

theorem syncTo {server : Nat} {host language : String} {document : Document}
    (held : bridge.Orderly → bridge.store.get? host language = some document)
    (synced : bridge.syncTo server document = .ok after) : bridge.Rests after := by
  obtain ⟨aliasUri, encoded, rfl⟩ := Except.map_eq_ok synced
  refine ⟨rfl, rfl, rfl, fun orderly => ?_⟩
  obtain ⟨⟨sameLanguage, sameHost⟩, _⟩ := orderly.store.named (held orderly)
  rw [sameLanguage, sameHost] at encoded
  have tells := (bridge.link server).syncDocument_tells aliasUri document.text document.version
  refine tells.effects.mono ?_
  rintro effect ⟨client, _, about⟩
  rcases about with ⟨_, _, rfl⟩ | ⟨_, _, rfl⟩ | rfl
  · exact ⟨host, language, document, held orderly, encoded⟩
  · exact ⟨host, language, document, held orderly, encoded⟩
  · trivial

theorem syncDocument {host language : String}
    (synced : bridge.syncDocument host language = .ok after) : bridge.Rests after := by
  unfold Bridge.syncDocument at synced
  split at synced
  · rename_i document server held _
    split at synced
    · exact syncTo (fun _ => held) synced
    · cases synced
      exact refl bridge
  · cases synced
    exact refl bridge

/-- A server that has just started gets documents of the store and no others. -/
theorem syncAll (server : Nat) {documents : List Document}
    (held : ∀ document ∈ documents, document ∈ bridge.store.allDocuments) :
    bridge.Rests (Bridge.syncAll server documents bridge).1 := by
  induction documents generalizing bridge with
  | nil => exact refl bridge
  | cons document rest ih =>
    obtain ⟨here, others⟩ := List.forall_mem_cons.mp held
    unfold Bridge.syncAll
    cases synced : bridge.syncTo server document with
    | error fault => exact refl bridge
    | ok after =>
      have first : bridge.Rests after :=
        syncTo (fun orderly => (orderly.store.mem_allDocuments document).mp here) synced
      exact first.trans (ih (first.store ▸ others))

theorem syncLaunched {server : Nat} {language : String} {result : Except Fault Unit}
    (synced : Bridge.syncAll server (bridge.documentsIn language) bridge = (after, result)) :
    bridge.Rests after := by
  have rests : bridge.Rests (Bridge.syncAll server (bridge.documentsIn language) bridge).1 :=
    syncAll server fun _ member => (List.mem_filter.mp member).1
  rw [synced] at rests
  exact rests

theorem updateSettings (bridge : Bridge) (settings : Value) :
    bridge.Rests (bridge.updateSettings settings) := by
  unfold Bridge.updateSettings
  generalize bridge.current.values = servers
  induction servers generalizing bridge with
  | nil => exact refl bridge
  | cons server rest ih =>
    have first := routine (Link.Routine.updateSettings (bridge.link server) settings)
    exact first.trans (ih _)

end Rests

theorem closeDocuments_frame (host : String) (documents : List Document) (bridge : Bridge) :
    (closeDocuments host documents bridge).1.store = bridge.store ∧
      (closeDocuments host documents bridge).1.diagnostics = bridge.diagnostics ∧
      (closeDocuments host documents bridge).1.router = bridge.router ∧
      (closeDocuments host documents bridge).1.publishes = bridge.publishes ∧
      bridge.wire.Adds (Effect.Current bridge.store)
        (closeDocuments host documents bridge).1.wire := by
  induction documents generalizing bridge with
  | nil => exact ⟨rfl, rfl, rfl, rfl, .refl _⟩
  | cons document rest ih =>
    unfold closeDocuments
    split
    · exact ih bridge
    · rename_i server _
      split
      · exact ⟨rfl, rfl, rfl, rfl, .refl _⟩
      · rename_i aliasUri _
        obtain ⟨store, diagnostics, router, publishes, effects⟩ :=
          ih (bridge.setLink server ((bridge.link server).closeDocument aliasUri))
        have closed := (bridge.link server).closeDocument_adds aliasUri bridge.store
        exact ⟨store, diagnostics, router, publishes, closed.trans effects⟩

/-! ### What child servers publish -/

/-- All that is held of a host, by language. -/
def heldOf (bridge : Bridge) (host : String) : Table String (List Diagnostic) :=
  (bridge.diagnostics.get? host).getD {}

/-- What is held after a publication. -/
def holding (bridge : Bridge) : Option (Alias × List Diagnostic) →
    Table String (Table String (List Diagnostic))
  | none => bridge.diagnostics
  | some (source, mapped) =>
    if bridge.store.contains source.host then
      bridge.diagnostics.put source.host
        ((bridge.heldOf source.host).put source.language mapped)
    else bridge.diagnostics

/-- Takes over a publication, if there is one. -/
def hear (bridge : Bridge) : Option (Alias × List Diagnostic) → Bridge
  | none => bridge
  | some (source, mapped) => bridge.putDiagnostics source mapped

theorem Orderly.holding (orderly : bridge.Orderly)
    (publication : Option (Alias × List Diagnostic)) :
    ({ bridge with diagnostics := bridge.holding publication } : Bridge).Orderly := by
  refine ⟨orderly.store, fun uri untracked => ?_⟩
  unfold Bridge.holding
  split
  · exact orderly.diagnostics uri untracked
  · split
    · rename_i source _ tracked
      rw [Table.get?_put, if_neg]
      · exact orderly.diagnostics uri untracked
      · intro same
        subst same
        simp [Store.contains, Table.contains, untracked] at tracked
    · exact orderly.diagnostics uri untracked

theorem hear_rests (bridge : Bridge) (publication : Option (Alias × List Diagnostic)) :
    ({ bridge with diagnostics := bridge.holding publication } : Bridge).Rests
      (bridge.hear publication) := by
  cases publication with
  | none => exact .refl bridge
  | some publication =>
    simp only [hear, Bridge.holding, putDiagnostics]
    split
    · exact .publish _ _
    · exact .refl bridge

end Bridge

end LanguageBridge
