import LanguageBridge.Bridge.Basic
import LanguageBridge.Proofs.Alias
import LanguageBridge.Proofs.Child.Documents
import LanguageBridge.Proofs.Store.Versions

namespace LanguageBridge

/-! What is true of every child server of a bridge, whatever has become of the hosts meanwhile. A
server that is up has a client. It knows no document that the store has not, and never a version that
is yet to come. -/

namespace Link

/-- A child server of a language, seen against the store. -/
structure Sound (root : Option String) (store : Store) (language : String) (link : Link) :
    Prop where
  named : link.server.language = language
  idle : link.server.started = false →
    ∀ aliasUri, link.server.openDocuments.get? aliasUri = none
  up : link.server.started = true → link.Ready root
  agrees : ∀ client, link.server.client = some client → ∀ aliasUri, link.Agrees client aliasUri
  aliases : ∀ aliasUri, (link.server.openDocuments.get? aliasUri).isSome →
    ∃ host, Alias.encode host language = .ok aliasUri
  known : ∀ client, link.server.client = some client → ∀ host aliasUri version text,
    Alias.encode host language = .ok aliasUri →
      shown language client aliasUri link.wire.effects = some (version, text) →
        ∃ document, store.get? host language = some document ∧ version ≤ document.version ∧
          (version = document.version → text = document.text)

variable {root : Option String} {store : Store} {language : String} {link before after : Link}

namespace Sound

/-- What leaves the documents alone keeps a server sound. -/
theorem extended {kind : Effect → Prop} (sound : before.Sound root store language)
    (bounded : before.Bounded) (extended : before.Extends kind after)
    (quiet : ∀ effect, kind effect → effect.Quiet)
    (up : after.server.started = true → after.Ready root) : after.Sound root store language := by
  have sameShown := (extended.effects.mono quiet).shown_eq
  have freshShown : ∀ client, before.wire.clients ≤ client → ∀ aliasUri,
      shown language client aliasUri after.wire.effects = none := by
    intro client fresh aliasUri
    rw [sameShown]
    exact shown_of_below bounded.effects fresh language aliasUri
  refine ⟨extended.language.trans sound.named, ?_, up, ?_, extended.openDocuments ▸ sound.aliases, ?_⟩
  · intro down aliasUri
    rw [extended.openDocuments]
    apply sound.idle
    cases up : before.server.started with
    | false => rfl
    | true => rw [extended.started up] at down; contradiction
  · intro client held aliasUri
    rw [Agrees, extended.openDocuments, extended.language]
    rcases extended.client client held with same | ⟨fresh, down⟩
    · rw [sameShown]
      exact sound.agrees client same aliasUri
    · rw [sound.named, freshShown client fresh, sound.idle down]
      rfl
  · intro client held host aliasUri version text encoded isShown
    rcases extended.client client held with same | ⟨fresh, _⟩
    · rw [sameShown] at isShown
      exact sound.known client same host aliasUri version text encoded isShown
    · rw [freshShown client fresh] at isShown
      contradiction

theorem rewired {server : ChildServer} {wire other : Wire}
    (sound : (⟨server, wire⟩ : Link).Sound root store language)
    (same : ∀ client aliasUri, shown language client aliasUri other.effects =
      shown language client aliasUri wire.effects) :
    (⟨server, other⟩ : Link).Sound root store language := by
  refine ⟨sound.named, sound.idle, sound.up, ?_, sound.aliases, ?_⟩
  · intro client held aliasUri
    have agrees := sound.agrees client held aliasUri
    have named : server.language = language := sound.named
    simp only [Agrees, named, same] at agrees ⊢
    exact agrees
  · intro client held host aliasUri version text encoded isShown
    rw [same] at isShown
    exact sound.known client held host aliasUri version text encoded isShown

/-- Another store in which every document has at least gone on. -/
theorem advanced {later : Store} (sound : link.Sound root store language)
    (follows : ∀ host document, store.get? host language = some document →
      ∃ next, later.get? host language = some next ∧ next.Follows document) :
    link.Sound root later language := by
  refine ⟨sound.named, sound.idle, sound.up, sound.agrees, sound.aliases, ?_⟩
  intro client held host aliasUri version text encoded isShown
  obtain ⟨document, found, notNewer, sameText⟩ :=
    sound.known client held host aliasUri version text encoded isShown
  obtain ⟨next, foundNext, next_follows⟩ := follows host document found
  refine ⟨next, foundNext, ?_⟩
  rcases next_follows with rfl | newer
  · exact ⟨notNewer, sameText⟩
  · exact ⟨by omega, fun same => by omega⟩

theorem tells {host aliasUri : String} (sound : before.Sound root store language)
    (encoded : Alias.encode host language = .ok aliasUri) (tells : before.Tells aliasUri after)
    (idle : before.server.started = false → after.server.openDocuments.get? aliasUri = none)
    (agrees : ∀ client, before.server.client = some client → after.Agrees client aliasUri)
    (known : ∀ client, before.server.client = some client → ∀ version text,
      shown language client aliasUri after.wire.effects = some (version, text) →
        ∃ document, store.get? host language = some document ∧ version ≤ document.version ∧
          (version = document.version → text = document.text)) :
    after.Sound root store language := by
  refine ⟨tells.language.trans sound.named, ?_, ?_, ?_, ?_, ?_⟩
  · intro down other
    rw [tells.started] at down
    by_cases same : other = aliasUri
    · exact same ▸ idle down
    · rw [tells.others other same]
      exact sound.idle down other
  · intro up
    obtain ⟨rooted, held⟩ := sound.up (tells.started ▸ up)
    exact ⟨rooted, tells.client ▸ held⟩
  · intro client held other
    rw [tells.client] at held
    by_cases same : other = aliasUri
    · exact same ▸ agrees client held
    · have before := sound.agrees client held other
      rw [Agrees] at before ⊢
      rw [tells.language, tells.shown_other (Or.inr same), tells.others other same]
      exact before
  · intro other isOpen
    by_cases same : other = aliasUri
    · exact ⟨host, same ▸ encoded⟩
    · rw [tells.others other same] at isOpen
      exact sound.aliases other isOpen
  · intro client held otherHost other version text otherEncoded isShown
    rw [tells.client] at held
    by_cases same : other = aliasUri
    · subst same
      obtain ⟨rfl, _⟩ := Alias.encode_injective encoded otherEncoded
      exact known client held version text isShown
    · rw [tells.shown_other (Or.inr same)] at isShown
      exact sound.known client held otherHost other version text otherEncoded isShown

section

variable (sound : link.Sound root store language)
include sound

theorem syncDocument_shown {client : Nat} {host aliasUri : String} {document : Document}
    (up : link.client? = some client)
    (encoded : Alias.encode host language = .ok aliasUri)
    (found : store.get? host language = some document) :
    shown language client aliasUri
      (link.syncDocument aliasUri document.text document.version).wire.effects =
        some (document.version, document.text) := by
  obtain ⟨_, held⟩ := client?_eq_some.mp up
  have agrees := sound.agrees client held aliasUri
  have named := sound.named
  have result := Link.syncDocument_shown up agrees document.text document.version
  rw [named] at result
  rcases result with told | ⟨same, noted⟩
  · exact told
  · -- the version was sent before, and a version has one text only
    rw [Agrees, noted, named] at agrees
    obtain ⟨⟨version, text⟩, isShown, sameVersion⟩ := Option.map_eq_some_iff.mp agrees
    obtain ⟨present, foundPresent, _, sameText⟩ :=
      sound.known client held host aliasUri version text encoded isShown
    rw [found] at foundPresent
    cases foundPresent
    cases sameVersion
    rw [same, isShown, sameText rfl]

theorem syncDocument {host aliasUri : String} {document : Document}
    (encoded : Alias.encode host language = .ok aliasUri)
    (found : store.get? host language = some document) :
    (link.syncDocument aliasUri document.text document.version).Sound root store language := by
  cases up : link.client? with
  | none =>
    rw [syncDocument_down up]
    exact sound
  | some present =>
    obtain ⟨started, present_held⟩ := client?_eq_some.mp up
    have told := syncDocument_tells link aliasUri document.text document.version
    have isShown := sound.syncDocument_shown up encoded found
    refine sound.tells encoded told ?_ ?_ ?_
    · intro down
      rw [started] at down
      contradiction
    · intro client held
      rw [present_held] at held
      cases held
      rw [Agrees, told.language, sound.named, isShown, syncDocument_noted up]
      rfl
    · intro client held version text known
      rw [present_held] at held
      cases held
      rw [isShown] at known
      cases known
      exact ⟨document, found, Int.le_refl _, fun _ => rfl⟩

/-- A server that is down has nothing open that could be closed. -/
theorem closeDocument_idle (down : link.server.started = false) (aliasUri : String) :
    link.closeDocument aliasUri = link := by
  unfold Link.closeDocument
  rw [if_neg (by simp [isOpen, Table.contains, sound.idle down aliasUri])]

theorem closeDocument_shown {client : Nat} (held : link.server.client = some client)
    (aliasUri : String) :
    shown language client aliasUri (link.closeDocument aliasUri).wire.effects = none := by
  have agrees := sound.agrees client held aliasUri
  cases started : link.server.started with
  | false =>
    rw [Agrees, sound.idle started, Option.map_eq_none_iff, sound.named] at agrees
    rw [sound.closeDocument_idle started, agrees]
  | true =>
    rw [← sound.named]
    exact Link.closeDocument_shown (client?_eq_some.mpr ⟨started, held⟩) agrees

theorem closeDocument {host aliasUri : String} (encoded : Alias.encode host language = .ok aliasUri) :
    (link.closeDocument aliasUri).Sound root store language := by
  have tells := closeDocument_tells link aliasUri
  have noted := closeDocument_noted link aliasUri
  refine sound.tells encoded tells (fun _ => noted) ?_ ?_
  · intro client held
    rw [Agrees, tells.language, sound.named, sound.closeDocument_shown held, noted]
    rfl
  · intro client held version text known
    rw [sound.closeDocument_shown held] at known
    contradiction

end

end Sound

end Link

end LanguageBridge
