import LanguageBridge.Proofs.Bridge.Readiness

namespace LanguageBridge

/-! What the child servers have once nobody is bringing them documents any more. -/

namespace Run

/-- No handler of an opened or edited host is unfinished. Those of closed hosts end at once. -/
def AtRest (run : Run) : Prop :=
  ∀ task host language rest, run.tasks.get? task ≠ some (.syncing host language rest)

theorem Settled.told {run : Run} (settled : run.Settled) (atRest : run.AtRest)
    {host language : String} {document : Document}
    (held : run.bridge.store.get? host language = some document) :
    run.bridge.Told host language document := by
  refine (settled host language document held).resolve_right ?_
  rintro ⟨task, awaited, rest, syncing, _⟩
  exact atRest task host awaited rest syncing

variable {config : Config} {padding : Padding} {names : LanguageNames} {rules : Option (List Rule)}
  {root : Option String} {publishes : Bool} {editor : Editor} {events : List BridgeEvent} {run : Run}

/-- Whatever has happened but a shutdown, a child server that is up has the documents of its language
open and no others, in their present versions and texts. -/
theorem started_server_matches_store (reached : Reached act Permits
      (fresh config padding names rules root publishes editor) events run) (atRest : run.AtRest)
    {language : String} {server : Nat} (found : run.bridge.current.get? language = some server)
    (started : (run.bridge.link server).server.started = true) :
    ∃ client, (run.bridge.link server).client? = some client ∧
      (∀ aliasUri, (run.bridge.link server).isOpen aliasUri = true ↔
        ∃ host document, run.bridge.store.get? host language = some document ∧
          Alias.encode host language = .ok aliasUri) ∧
      (∀ aliasUri, (shown language client aliasUri run.bridge.wire.effects).isSome =
        (run.bridge.link server).isOpen aliasUri) ∧
      ∀ host document, run.bridge.store.get? host language = some document →
        ∃ aliasUri, Alias.encode host language = .ok aliasUri ∧
          shown language client aliasUri run.bridge.wire.effects =
            some (document.version, document.text) := by
  obtain ⟨sound, settled⟩ := reached_permitted reached
  have linkSound := (sound.bridge.servers language server found).2
  obtain ⟨client, held⟩ := Option.isSome_iff_exists.mp (linkSound.up started).2
  have up : (run.bridge.link server).client? = some client :=
    Link.client?_eq_some.mpr ⟨started, held⟩
  have noted : ∀ aliasUri, (shown language client aliasUri run.bridge.wire.effects).isSome =
      (run.bridge.link server).isOpen aliasUri := by
    intro aliasUri
    have agrees := linkSound.agrees client held aliasUri
    rw [Link.Agrees, linkSound.named] at agrees
    rw [Link.isOpen, Table.contains, ← agrees, Option.isSome_map]
    rfl
  refine ⟨client, up, fun aliasUri => ⟨fun isOpen => ?_, ?_⟩, noted, fun host document stored => ?_⟩
  · obtain ⟨host, encoded⟩ := linkSound.aliases aliasUri isOpen
    rw [← noted] at isOpen
    obtain ⟨⟨version, text⟩, isShown⟩ := Option.isSome_iff_exists.mp isOpen
    obtain ⟨document, stored, _⟩ :=
      linkSound.known client held host aliasUri version text encoded isShown
    exact ⟨host, document, stored, encoded⟩
  · rintro ⟨host, document, stored, encoded⟩
    rw [← noted, settled.told atRest stored server client aliasUri found up encoded]
    rfl
  · obtain ⟨_, hostGiven, languageGiven⟩ := sound.bridge.store.named stored
    obtain ⟨aliasUri, encoded⟩ := Alias.exists_encode hostGiven languageGiven
    exact ⟨aliasUri, encoded, settled.told atRest stored server client aliasUri found up encoded⟩

/-! ### A host that was late

The second of two hosts had to wait for a child server; now it has been started. -/

def caughtUp : Run :=
  (twoHosts.release "slow" (.result .null)).2

theorem caughtUp_reached : ∃ events, Reached act Permits noHost events caughtUp := by
  obtain ⟨_, reached⟩ := twoHosts_reached
  obtain ⟨events, released⟩ :=
    reached_release (fun _ => trivial) reached "slow" (.result .null) trivial
  exact ⟨events, released.mono fun _ _ admitted => admitted.permits.1⟩

/-- The child server has the document of the second host as well, and a third one it has not. -/
theorem started_server_matches_store_of_late_host :
    caughtUp.AtRest ∧ ∃ client, (caughtUp.bridge.link 0).client? = some client ∧
      shown "python" client "otter://b/python" caughtUp.bridge.wire.effects = some (1, "y\n") ∧
        (caughtUp.bridge.link 0).isOpen "otter://c/python" = false := by
  obtain ⟨events, reached⟩ := caughtUp_reached
  -- all in one, so that the run is evaluated once
  have seen : (caughtUp.tasks, caughtUp.bridge.current.get? "python",
      (caughtUp.bridge.link 0).server.started,
      (caughtUp.bridge.store.get? "b" "python").map fun document => (document.version, document.text),
      (caughtUp.bridge.store.get? "c" "python").isNone) =
        ({}, some 0, true, some (1, "y\n"), true) := by cbv
  simp only [Prod.mk.injEq, Option.isNone_iff_eq_none] at seen
  obtain ⟨nobody, found, started, stored, absent⟩ := seen
  have atRest : caughtUp.AtRest := by
    intro task host language rest syncing
    rw [nobody] at syncing
    cases syncing
  have encoded : Alias.encode "b" "python" = .ok "otter://b/python" := by cbv
  have encodedAbsent : Alias.encode "c" "python" = .ok "otter://c/python" := by cbv
  obtain ⟨client, up, opened, _, told⟩ :=
    started_server_matches_store reached atRest found started
  refine ⟨atRest, client, up, ?_, ?_⟩
  · obtain ⟨document, held, isDocument⟩ := Option.map_eq_some_iff.mp stored
    obtain ⟨aliasUri, isAlias, isShown⟩ := told "b" document held
    cases encoded.symm.trans isAlias
    rw [isShown, ← isDocument]
  · refine Bool.eq_false_iff.mpr fun isOpen => ?_
    obtain ⟨host, document, held, isAlias⟩ := (opened "otter://c/python").mp isOpen
    obtain ⟨rfl, _⟩ := Alias.encode_injective encodedAbsent isAlias
    rw [absent] at held
    contradiction

end Run

end LanguageBridge
