import LanguageBridge.Proofs.Bridge.Documents
import LanguageBridge.Proofs.Child.Messages

namespace LanguageBridge

/-! Settings that are passed on to child servers, and what child servers send of their own accord.
Neither brings a document anywhere. -/

namespace Bridge

variable {bridge after : Bridge}

theorem Aside.setLink {server : Nat} {link : Link} (aside : (bridge.link server).Aside link) :
    bridge.Aside (bridge.setLink server link) := by
  refine ⟨?_, rfl, rfl, rfl, aside.clients, aside.effects⟩
  simp only [Bridge.setLink, aside.server, Bridge.link]
  by_cases within : server < bridge.servers.length
  · rw [List.getD_eq_getElem?_getD, List.getElem?_eq_getElem within, Option.getD_some,
      List.set_getElem_self]
  · exact List.set_eq_of_length_le (Nat.not_lt.mp within)

theorem Aside.putDiagnostics (bridge : Bridge) (source : Alias) (mapped : List Diagnostic) :
    bridge.Aside (bridge.putDiagnostics source mapped) := by
  unfold Bridge.putDiagnostics
  split
  · have noted : bridge.Aside { bridge with
        diagnostics := bridge.diagnostics.put source.host
          (((bridge.diagnostics.get? source.host).getD {}).put source.language mapped) } :=
      ⟨rfl, rfl, rfl, rfl, rfl, .refl _⟩
    exact noted.trans (.announce _ source.host _)
  · exact .refl bridge

theorem Sound.passSettings {servers : List Nat} (sound : bridge.Sound)
    (known : ∀ server ∈ servers, ∃ language, bridge.current.get? language = some server)
    (settings : Value) :
    bridge.Keeps Effect.Plain (servers.foldl (fun bridge server =>
        bridge.setLink server ((bridge.link server).updateSettings settings)) bridge) ∧
      ∀ wanted, SameState wanted bridge (servers.foldl (fun bridge server =>
        bridge.setLink server ((bridge.link server).updateSettings settings)) bridge) := by
  induction servers generalizing bridge with
  | nil => exact ⟨.refl sound, fun _ _ _ => ⟨rfl, rfl⟩⟩
  | cons server rest ih =>
    obtain ⟨language, found⟩ := known server List.mem_cons_self
    obtain ⟨retires, client, marks⟩ := (bridge.link server).updateSettings_retires settings
    have started := congrArg (fun marks => marks.2.1) marks
    have extended : (bridge.link server).Extends Effect.Plain _ :=
      retires.extends (fun _ => Effect.Steering.plain) fun _ => client
    have keeps := sound.keeps_extends found extended (fun _ => Effect.Plain.quiet) started
    have states : ∀ wanted, SameState wanted bridge
        (bridge.setLink server ((bridge.link server).updateSettings settings)) :=
      fun _ => sound.sameState found fun _ => ⟨client, started⟩
    obtain ⟨keepsRest, statesRest⟩ := ih keeps.sound fun other member =>
      known other (List.mem_cons_of_mem server member)
    exact ⟨keeps.trans keepsRest, fun wanted =>
      (states wanted).trans (statesRest wanted) (keeps.current wanted)⟩

theorem Sound.updateSettings (sound : bridge.Sound) (settings : Value) :
    bridge.Keeps Effect.Plain (bridge.updateSettings settings) ∧
      ∀ wanted, SameState wanted bridge (bridge.updateSettings settings) := by
  refine sound.passSettings (fun server member => ?_) settings
  obtain ⟨entry, isEntry, rfl⟩ := List.mem_map.mp member
  exact ⟨entry.1, sound.distinct.get?_of_mem isEntry⟩

end Bridge

end LanguageBridge
