import LanguageBridge.Proofs.Child.Launch

namespace LanguageBridge

/-! Telling a child server about its documents, and asking it. What it has been told is what the link
notes down. -/

def Effect.About (language : String) (client : Nat) (aliasUri : String) (effect : Effect) : Prop :=
  (∃ version text, effect = .sent language client (.didOpen aliasUri language version text)) ∨
  (∃ version text, effect = .sent language client (.didChange aliasUri version text)) ∨
  effect = .sent language client (.didClose aliasUri)

namespace Effect.About

variable {language aliasUri : String} {client : Nat} {effect : Effect}

theorem noRequest (about : effect.About language client aliasUri) : effect.NoRequest := by
  rcases about with ⟨_, _, rfl⟩ | ⟨_, _, rfl⟩ | rfl <;> rfl

theorem below (about : effect.About language client aliasUri) {clients : Nat}
    (less : client < clients) : effect.Below clients := by
  rcases about with ⟨_, _, rfl⟩ | ⟨_, _, rfl⟩ | rfl <;> exact less

theorem untold (about : effect.About language client aliasUri) {otherLanguage other : String}
    {otherClient : Nat} (different : otherLanguage ≠ language ∨ other ≠ aliasUri)
    (known : Option (Int × String)) : effect.tell otherLanguage otherClient other known = known := by
  rcases different with different | different
  · rcases about with ⟨_, _, rfl⟩ | ⟨_, _, rfl⟩ | rfl <;>
      rw [Effect.tell, if_neg fun same => different same.1.symm]
  · rcases about with ⟨_, _, rfl⟩ | ⟨_, _, rfl⟩ | rfl <;>
      simp only [Effect.tell, ChildMessage.tell, if_neg (Ne.symm different), ite_self]

end Effect.About

namespace Link

/-- A link whose client, if it has one, was told about one document. -/
structure Tells (aliasUri : String) (before after : Link) : Prop where
  language : after.server.language = before.server.language
  started : after.server.started = before.server.started
  client : after.server.client = before.server.client
  clients : after.wire.clients = before.wire.clients
  effects : before.wire.Adds (fun effect => ∃ client, before.server.client = some client ∧
    effect.About before.server.language client aliasUri) after.wire
  others : ∀ other, other ≠ aliasUri →
    after.server.openDocuments.get? other = before.server.openDocuments.get? other

namespace Tells

variable {aliasUri : String} {before after : Link}

theorem refl (link : Link) (aliasUri : String) : link.Tells aliasUri link :=
  ⟨rfl, rfl, rfl, rfl, .refl _, fun _ _ => rfl⟩

theorem shown_other (tells : before.Tells aliasUri after) {language other : String}
    (different : language ≠ before.server.language ∨ other ≠ aliasUri) (client : Nat) :
    shown language client other after.wire.effects =
      shown language client other before.wire.effects := by
  obtain ⟨more, same, about⟩ := tells.effects
  rw [same]
  refine shown_append fun effect member known => ?_
  obtain ⟨_, _, aboutDocument⟩ := about effect member
  exact aboutDocument.untold different known

theorem bounded (tells : before.Tells aliasUri after) (bounded : before.Bounded) :
    after.Bounded := by
  constructor
  · intro effect member
    obtain ⟨more, same, about⟩ := tells.effects
    rw [same] at member
    rw [tells.clients]
    rcases List.mem_append.mp member with old | new
    · exact bounded.effects effect old
    · obtain ⟨client, held, aboutDocument⟩ := about effect new
      exact aboutDocument.below (bounded.client client held)
  · intro client held
    rw [tells.client] at held
    rw [tells.clients]
    exact bounded.client client held

theorem noRequest (tells : before.Tells aliasUri after) :
    before.wire.Adds Effect.NoRequest after.wire :=
  tells.effects.mono fun _ ⟨_, _, about⟩ => about.noRequest

end Tells

/-! ### Bringing a document up to date -/

variable {link : Link} {client : Nat} {aliasUri text : String} {version : Int}

/-- What the link notes down about a document is what its client was told. -/
def Agrees (link : Link) (client : Nat) (aliasUri : String) : Prop :=
  (shown link.server.language client aliasUri link.wire.effects).map Prod.fst =
    link.server.openDocuments.get? aliasUri

theorem client?_eq_some :
    link.client? = some client ↔ link.server.started = true ∧ link.server.client = some client := by
  unfold client?
  split
  · rename_i up
    simp [up]
  · rename_i down
    simp [down]

theorem syncDocument_down (down : link.client? = none) :
    link.syncDocument aliasUri text version = link := by
  simp only [syncDocument, down]

theorem syncDocument_tells (link : Link) (aliasUri text : String) (version : Int) :
    link.Tells aliasUri (link.syncDocument aliasUri text version) := by
  have others : ∀ other, other ≠ aliasUri →
      (link.server.openDocuments.put aliasUri version).get? other =
        link.server.openDocuments.get? other := by
    intro other different
    rw [Table.get?_put, if_neg different]
  cases up : link.client? with
  | none =>
    rw [syncDocument_down up]
    exact .refl link _
  | some client =>
    have held := (client?_eq_some.mp up).2
    simp only [syncDocument, up]
    split
    · exact ⟨rfl, rfl, rfl, rfl, .emit _ ⟨client, held, Or.inl ⟨version, text, rfl⟩⟩, others⟩
    · split
      · exact .refl link _
      · exact ⟨rfl, rfl, rfl, rfl,
          .emit _ ⟨client, held, Or.inr (Or.inl ⟨version, text, rfl⟩)⟩, others⟩

theorem syncDocument_noted (up : link.client? = some client) :
    (link.syncDocument aliasUri text version).server.openDocuments.get? aliasUri =
      some version := by
  unfold syncDocument
  simp only [up]
  split
  · exact (Table.get?_put _ _ _ _).trans (if_pos rfl)
  · rename_i known noted
    split
    · rename_i same
      rw [noted, same]
    · exact (Table.get?_put _ _ _ _).trans (if_pos rfl)

theorem syncDocument_shown (up : link.client? = some client)
    (agrees : link.Agrees client aliasUri) (text : String) (version : Int) :
    shown link.server.language client aliasUri
        (link.syncDocument aliasUri text version).wire.effects = some (version, text) ∨
      (link.syncDocument aliasUri text version = link ∧
        link.server.openDocuments.get? aliasUri = some version) := by
  unfold syncDocument
  simp only [up]
  split
  · refine Or.inl ((shown_concat _ _ _ _ _).trans ?_)
    simp [Effect.tell, ChildMessage.tell]
  · rename_i known noted
    split
    · rename_i same
      exact Or.inr ⟨rfl, same ▸ noted⟩
    · refine Or.inl ((shown_concat _ _ _ _ _).trans ?_)
      rw [Agrees, noted] at agrees
      obtain ⟨before, shownBefore, _⟩ := Option.map_eq_some_iff.mp agrees
      simp [Effect.tell, ChildMessage.tell, shownBefore]

/-! ### Closing a document -/

theorem closeDocument_tells (link : Link) (aliasUri : String) :
    link.Tells aliasUri (link.closeDocument aliasUri) := by
  have others : ∀ other, other ≠ aliasUri →
      (link.server.openDocuments.erase aliasUri).get? other =
        link.server.openDocuments.get? other := by
    intro other different
    rw [Table.get?_erase, if_neg different]
  unfold closeDocument
  split
  · dsimp only
    split
    · exact ⟨rfl, rfl, rfl, rfl, .refl _, others⟩
    · rename_i client up
      have held := (client?_eq_some.mp up).2
      exact ⟨rfl, rfl, rfl, rfl, .emit _ ⟨client, held, Or.inr (Or.inr rfl)⟩, others⟩
  · exact .refl link _

theorem closeDocument_noted (link : Link) (aliasUri : String) :
    (link.closeDocument aliasUri).server.openDocuments.get? aliasUri = none := by
  unfold closeDocument
  split
  · have erased : (link.server.openDocuments.erase aliasUri).get? aliasUri = none :=
      (Table.get?_erase _ _ _).trans (if_pos rfl)
    dsimp only
    split
    · exact erased
    · exact erased
  · rename_i closed
    simpa [isOpen, Table.contains] using closed

theorem closeDocument_shown (up : link.client? = some client)
    (agrees : link.Agrees client aliasUri) :
    shown link.server.language client aliasUri (link.closeDocument aliasUri).wire.effects =
      none := by
  unfold closeDocument
  split
  · have stillUp : ({ link with server := { link.server with
        openDocuments := link.server.openDocuments.erase aliasUri } } : Link).client? =
          some client := up
    simp only [stillUp]
    refine (shown_concat _ _ _ _ _).trans ?_
    simp [Effect.tell, ChildMessage.tell]
  · rename_i closed
    have notOpen : link.server.openDocuments.get? aliasUri = none := by
      simpa [isOpen, Table.contains] using closed
    rw [Agrees, notOpen, Option.map_eq_none_iff] at agrees
    exact agrees

/-! ### Asking -/

def Asks (link : Link) (method : Method) (params : Params) (effect : Effect) : Prop :=
  ∃ client, link.client? = some client ∧
    effect = .sent link.server.language client (.request method params)

theorem request_extends (link : Link) (method : Method) (params : Params) :
    link.Extends (link.Asks method params) (link.request method params).1 ∧
      (link.request method params).1.server = link.server := by
  unfold request
  cases up : link.client? with
  | none => exact ⟨.refl _, rfl⟩
  | some client =>
    simp only
    split
    · exact ⟨.refl _, rfl⟩
    · have asked : link.Retires (link.Asks method params) _ :=
        retires_asking (client?_eq_some.mp up).2 ⟨client, up, rfl⟩ (.request method)
      exact ⟨asked.extends (fun _ => id) fun _ => rfl, rfl⟩

end Link

end LanguageBridge
