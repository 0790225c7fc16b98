import LanguageBridge.Proofs.Bridge.Servers

namespace LanguageBridge

/-! What the child servers of a bridge have been told about the documents of its store, and how
the bridge brings documents to them. -/

namespace Bridge

/-- Every child server in use is sound and the only one of its language, and no client is spoken of
that is yet to come. -/
structure Sound (bridge : Bridge) : Prop where
  store : bridge.store.Proper
  servers : ∀ language server, bridge.current.get? language = some server →
    server < bridge.servers.length ∧
      (bridge.link server).Sound bridge.root bridge.store language
  distinct : bridge.current.Distinct
  effects : ∀ effect ∈ bridge.wire.effects, effect.Below bridge.wire.clients
  clients : ∀ language server, bridge.current.get? language = some server →
    ∀ client, (bridge.link server).server.client = some client → client < bridge.wire.clients

/-- The child server of a language, if it is up, has the present text of a document. -/
def Told (bridge : Bridge) (host language : String) (document : Document) : Prop :=
  ∀ server client aliasUri, bridge.current.get? language = some server →
    (bridge.link server).client? = some client → Alias.encode host language = .ok aliasUri →
      shown language client aliasUri bridge.wire.effects = some (document.version, document.text)

/-- What goes on at a bridge while its hosts stay as they are. No child server forgets what it
was told. -/
structure Keeps (kind : Effect → Prop) (before after : Bridge) : Prop where
  sound : after.Sound
  store : after.store = before.store
  root : after.root = before.root
  current : ∀ language server, before.current.get? language = some server →
    after.current.get? language = some server
  told : ∀ host language document, before.store.get? host language = some document →
    before.Told host language document → after.Told host language document
  effects : before.wire.Adds kind after.wire

/-- The child server of a language, if there was one, has the client it had and is up if it was. -/
def SameState (language : String) (before after : Bridge) : Prop :=
  ∀ server, before.current.get? language = some server →
    (after.link server).server.client = (before.link server).server.client ∧
      (after.link server).server.started = (before.link server).server.started

/-- There is nobody to be told anything in a language. -/
def Down (bridge : Bridge) (language : String) : Prop :=
  ∀ server, bridge.current.get? language = some server → (bridge.link server).client? = none

variable {bridge before middle after : Bridge} {kind other : Effect → Prop}

namespace Keeps

theorem refl (sound : bridge.Sound) : bridge.Keeps kind bridge :=
  ⟨sound, rfl, rfl, fun _ _ => id, fun _ _ _ _ => id, .refl _⟩

theorem trans (first : before.Keeps kind middle) (second : middle.Keeps kind after) :
    before.Keeps kind after where
  sound := second.sound
  store := second.store.trans first.store
  root := second.root.trans first.root
  current := fun language server found => second.current language server
    (first.current language server found)
  told := by
    intro host language document found told
    exact second.told host language document (first.store ▸ found)
      (first.told host language document found told)
  effects := first.effects.trans second.effects

theorem mono (weaker : ∀ effect, kind effect → other effect) (keeps : before.Keeps kind after) :
    before.Keeps other after :=
  { keeps with effects := keeps.effects.mono weaker }

end Keeps

theorem SameState.trans {language : String} (first : SameState language before middle)
    (second : SameState language middle after)
    (current : ∀ server, before.current.get? language = some server →
      middle.current.get? language = some server) : SameState language before after := by
  intro server found
  obtain ⟨client, started⟩ := first server found
  obtain ⟨laterClient, laterStarted⟩ := second server (current server found)
  exact ⟨laterClient.trans client, laterStarted.trans started⟩

theorem Down.told {language : String} (down : bridge.Down language) (host : String)
    (document : Document) : bridge.Told host language document := by
  intro server client aliasUri found up
  rw [down server found] at up
  contradiction

/-! ### One link -/

theorem link_setLink {server : Nat} (within : server < bridge.servers.length) (link : Link)
    (wanted : Nat) : (bridge.setLink server link).link wanted =
      if wanted = server then link else ⟨(bridge.link wanted).server, link.wire⟩ := by
  split
  · rename_i same
    subst same
    simp [Bridge.link, setLink, within]
  · rename_i different
    simp [Bridge.link, setLink, List.getD_eq_getElem?_getD, List.getElem?_set_ne (Ne.symm different)]

namespace Sound

variable {language host aliasUri : String} {server : Nat} {link : Link}

theorem down_of_unknown_root (sound : bridge.Sound) (unknown : ¬ Link.RootKnown bridge.root)
    (language : String) : bridge.Down language := by
  intro server found
  cases up : (bridge.link server).client? with
  | none => rfl
  | some client =>
    have started := (Link.client?_eq_some.mp up).1
    exact absurd ((sound.servers language server found).2.up started).1 unknown

section

variable (sound : bridge.Sound) (found : bridge.current.get? language = some server)
include sound found

theorem link_bounded : (bridge.link server).Bounded :=
  ⟨sound.effects, sound.clients language server found⟩

theorem language_eq {otherLanguage : String}
    (otherFound : bridge.current.get? otherLanguage = some server) : otherLanguage = language := by
  have named := (sound.servers language server found).2.named
  have otherNamed := (sound.servers otherLanguage server otherFound).2.named
  exact otherNamed.symm.trans named

theorem link_setLink {wanted : String} {wantedServer : Nat}
    (wantedFound : bridge.current.get? wanted = some wantedServer) (link : Link) :
    (bridge.setLink server link).link wantedServer =
      if wanted = language then link else ⟨(bridge.link wantedServer).server, link.wire⟩ := by
  rw [Bridge.link_setLink (sound.servers language server found).1]
  split
  · rename_i same
    subst same
    rw [if_pos (sound.language_eq found wantedFound)]
  · rename_i different
    rw [if_neg]
    rintro rfl
    exact different (Option.some.inj (wantedFound.symm.trans found))

theorem setLink (linkSound : link.Sound bridge.root bridge.store language) (bounded : link.Bounded)
    (clients : bridge.wire.clients ≤ link.wire.clients)
    (others : ∀ wanted, wanted ≠ language → ∀ client aliasUri,
      shown wanted client aliasUri link.wire.effects =
        shown wanted client aliasUri bridge.wire.effects) :
    (bridge.setLink server link).Sound := by
  refine ⟨sound.store, ?_, sound.distinct, bounded.effects, ?_⟩
  · intro wanted wantedServer wantedFound
    obtain ⟨within, wantedSound⟩ := sound.servers wanted wantedServer wantedFound
    refine ⟨by simpa [Bridge.setLink] using within, ?_⟩
    rw [sound.link_setLink found wantedFound]
    split
    · rename_i same
      exact same ▸ linkSound
    · rename_i different
      exact wantedSound.rewired (others wanted different)
  · intro wanted wantedServer wantedFound client held
    rw [sound.link_setLink found wantedFound] at held
    split at held
    · exact bounded.client client held
    · exact Nat.lt_of_lt_of_le (sound.clients wanted wantedServer wantedFound client held) clients

theorem told_other {wanted : String} (different : wanted ≠ language)
    (same : ∀ client aliasUri, shown wanted client aliasUri link.wire.effects =
      shown wanted client aliasUri bridge.wire.effects) {host : String} {document : Document}
    (told : bridge.Told host wanted document) :
    (bridge.setLink server link).Told host wanted document := by
  intro wantedServer client aliasUri wantedFound up encoded
  rw [sound.link_setLink found wantedFound, if_neg different] at up
  exact (same client aliasUri).trans (told wantedServer client aliasUri wantedFound up encoded)

theorem told_setLink {document : Document}
    (told : ∀ client aliasUri, link.client? = some client →
      Alias.encode host language = .ok aliasUri → shown language client aliasUri link.wire.effects =
          some (document.version, document.text)) :
    (bridge.setLink server link).Told host language document := by
  intro present client aliasUri presentFound up encoded
  rw [sound.link_setLink found presentFound, if_pos rfl] at up
  exact told client aliasUri up encoded

/-! ### Things that say nothing about documents -/

theorem setLink_extends (extended : (bridge.link server).Extends kind link)
    (quiet : ∀ effect, kind effect → effect.Quiet)
    (up : link.server.started = true → link.Ready bridge.root) :
    (bridge.setLink server link).Sound :=
  sound.setLink found
    ((sound.servers language server found).2.extended (sound.link_bounded found) extended quiet
      up)
    (extended.bounded (sound.link_bounded found)) extended.clients
    fun wanted _ => (extended.effects.mono quiet).shown_eq wanted

/-- While a server stays up, or down, it need not be told anything again. -/
theorem keeps_extends (extended : (bridge.link server).Extends kind link)
    (quiet : ∀ effect, kind effect → effect.Quiet)
    (steady : link.server.started = (bridge.link server).server.started) :
    bridge.Keeps kind (bridge.setLink server link) where
  sound := by
    refine sound.setLink_extends found extended quiet fun up => ?_
    rw [steady] at up
    obtain ⟨rooted, held⟩ := (sound.servers language server found).2.up up
    exact ⟨rooted, extended.kept up ▸ held⟩
  store := rfl
  root := rfl
  current := fun _ _ => id
  told := by
    have sameShown := (extended.effects.mono quiet).shown_eq
    intro host wanted document _ told
    by_cases same : wanted = language
    · subst same
      refine sound.told_setLink found fun client aliasUri up encoded => ?_
      obtain ⟨started, held⟩ := Link.client?_eq_some.mp up
      rw [steady] at started
      -- a server that was up all the time has the client it had
      rcases extended.client client held with heldBefore | ⟨_, down⟩
      · exact (sameShown wanted client aliasUri).trans
          (told server client aliasUri found (Link.client?_eq_some.mpr ⟨started, heldBefore⟩)
            encoded)
      · rw [started] at down
        contradiction
    · exact sound.told_other found same (sameShown wanted) told
  effects := extended.effects

theorem sameState {wanted : String}
    (same : wanted = language → link.server.client = (bridge.link server).server.client ∧
        link.server.started = (bridge.link server).server.started) :
    SameState wanted bridge (bridge.setLink server link) := by
  intro wantedServer wantedFound
  rw [sound.link_setLink found wantedFound]
  split
  · rename_i sameLanguage
    subst sameLanguage
    rw [Option.some.inj (wantedFound.symm.trans found)]
    exact same rfl
  · exact ⟨rfl, rfl⟩

/-! ### Things that are about one document -/

theorem setLink_tells (tells : (bridge.link server).Tells aliasUri link)
    (linkSound : link.Sound bridge.root bridge.store language) :
    (bridge.setLink server link).Sound := by
  refine sound.setLink found linkSound (tells.bounded (sound.link_bounded found))
    (Nat.le_of_eq tells.clients.symm) ?_
  intro wanted different client
  have named := (sound.servers language server found).2.named
  exact fun aliasUri => tells.shown_other (Or.inl (named ▸ different)) client

theorem told_tells (encoded : Alias.encode host language = .ok aliasUri)
    (tells : (bridge.link server).Tells aliasUri link) {wantedHost wanted : String}
    {document : Document} (different : wantedHost ≠ host ∨ wanted ≠ language)
    (told : bridge.Told wantedHost wanted document) :
    (bridge.setLink server link).Told wantedHost wanted document := by
  by_cases same : wanted = language
  · subst same
    refine sound.told_setLink found fun client wantedAlias up wantedEncoded => ?_
    have upBefore : (bridge.link server).client? = some client := by
      obtain ⟨started, held⟩ := Link.client?_eq_some.mp up
      rw [tells.started] at started
      rw [tells.client] at held
      exact Link.client?_eq_some.mpr ⟨started, held⟩
    have otherAlias : wantedAlias ≠ aliasUri := by
      rintro rfl
      obtain ⟨rfl, _⟩ := Alias.encode_injective encoded wantedEncoded
      simp at different
    rw [tells.shown_other (Or.inr otherAlias)]
    exact told server client wantedAlias found upBefore wantedEncoded
  · have named := (sound.servers language server found).2.named
    exact sound.told_other found same
      (fun client wantedAlias => tells.shown_other (Or.inl (named ▸ same)) client) told

/-! ### Bringing documents to their servers -/

theorem syncTo {document : Document}
    (held : bridge.store.get? host language = some document) :
    ∃ after, bridge.syncTo server document = .ok after ∧ bridge.Keeps Effect.NoRequest after ∧
      (∀ wanted, SameState wanted bridge after) ∧ after.Told host language document := by
  obtain ⟨⟨sameLanguage, sameHost⟩, hostGiven, languageGiven⟩ := sound.store.named held
  obtain ⟨aliasUri, encoded⟩ := Alias.exists_encode hostGiven languageGiven
  have linkSound := (sound.servers language server found).2
  have tells := (bridge.link server).syncDocument_tells aliasUri document.text document.version
  have told : (bridge.setLink server ((bridge.link server).syncDocument aliasUri document.text
      document.version)).Told host language document := by
    refine sound.told_setLink found fun client present up presentEncoded => ?_
    rw [encoded] at presentEncoded
    cases presentEncoded
    refine linkSound.syncDocument_shown ?_ encoded held
    obtain ⟨started, heldClient⟩ := Link.client?_eq_some.mp up
    exact Link.client?_eq_some.mpr ⟨tells.started ▸ started, tells.client ▸ heldClient⟩
  refine ⟨_, by rw [Bridge.syncTo, sameHost, sameLanguage, encoded]; rfl, ?_, ?_, told⟩
  · refine ⟨sound.setLink_tells found tells (linkSound.syncDocument encoded held), rfl, rfl,
      fun _ _ => id, ?_, tells.noRequest⟩
    intro wantedHost wanted wantedDocument wantedHeld wantedTold
    by_cases same : wantedHost = host ∧ wanted = language
    · obtain ⟨rfl, rfl⟩ := same
      rw [held] at wantedHeld
      cases wantedHeld
      exact told
    · exact sound.told_tells found encoded tells (Decidable.not_and_iff_not_or_not.mp same) wantedTold
  · exact fun wanted => sound.sameState found fun _ => ⟨tells.client, tells.started⟩

theorem syncAll {documents : List Document}
    (held : ∀ document ∈ documents,
      bridge.store.get? document.hostUri language = some document) :
    ∃ after, Bridge.syncAll server documents bridge = (after, .ok ()) ∧
      bridge.Keeps Effect.NoRequest after ∧ (∀ wanted, SameState wanted bridge after) ∧
        ∀ document ∈ documents, after.Told document.hostUri language document := by
  induction documents generalizing bridge with
  | nil => exact ⟨bridge, rfl, .refl sound, fun _ _ _ => ⟨rfl, rfl⟩, by simp⟩
  | cons document rest ih =>
    have heldFirst := held document List.mem_cons_self
    obtain ⟨synced, isSynced, keeps, states, told⟩ := sound.syncTo found heldFirst
    obtain ⟨after, isAfter, keepsRest, statesRest, toldRest⟩ :=
      ih keeps.sound (keeps.current language server found) fun other member =>
        keeps.store ▸ held other (List.mem_cons_of_mem _ member)
    refine ⟨after, by rw [Bridge.syncAll, isSynced]; exact isAfter, keeps.trans keepsRest,
      fun wanted => (states wanted).trans (statesRest wanted) (keeps.current wanted), ?_⟩
    intro other member
    rcases List.mem_cons.mp member with rfl | inRest
    · exact keepsRest.told _ _ _ (keeps.store ▸ heldFirst) told
    · exact toldRest other inRest

end

/-- A document is brought to the server of its language, or there is none that is up. -/
theorem syncDocument (sound : bridge.Sound) (host language : String) :
    ∃ after, bridge.syncDocument host language = .ok after ∧
      bridge.Keeps Effect.NoRequest after ∧ (∀ wanted, SameState wanted bridge after) ∧
        ∀ document, bridge.store.get? host language = some document →
          after.Told host language document := by
  unfold Bridge.syncDocument
  cases held : bridge.store.get? host language with
  | none => exact ⟨bridge, rfl, .refl sound, fun _ _ _ => ⟨rfl, rfl⟩, by simp⟩
  | some document =>
    cases found : bridge.current.get? language with
    | none =>
      have down : bridge.Down language := by simp [Down, found]
      exact ⟨bridge, rfl, .refl sound, fun _ _ _ => ⟨rfl, rfl⟩,
        fun document _ => down.told host document⟩
    | some server =>
      cases started : (bridge.link server).server.started with
      | false =>
        have down : bridge.Down language := by simp [Down, found, Link.client?, started]
        exact ⟨bridge, by simp [started], .refl sound, fun _ _ _ => ⟨rfl, rfl⟩,
          fun document _ => down.told host document⟩
      | true =>
        obtain ⟨after, isAfter, keeps, states, told⟩ := sound.syncTo found held
        refine ⟨after, by simpa [started] using isAfter, keeps, states, ?_⟩
        rintro _ ⟨⟩
        exact told

theorem sync_launched (sound : bridge.Sound) (found : bridge.current.get? language = some server)
    (extended : (bridge.link server).Extends Effect.Plain link)
    (ready : link.Ready bridge.root) :
    ∃ after, Bridge.syncAll server ((bridge.setLink server link).documentsIn link.server.language)
        (bridge.setLink server link) = (after, .ok ()) ∧
      bridge.Keeps Effect.NoRequest after ∧
        ∀ wanted, wanted ≠ language → SameState wanted bridge after := by
  have named : link.server.language = language :=
    extended.language.trans (sound.servers language server found).2.named
  have linked := sound.setLink_extends found extended (fun _ => Effect.Plain.quiet) fun _ => ready
  have held : ∀ document ∈ (bridge.setLink server link).documentsIn link.server.language,
      (bridge.setLink server link).store.get? document.hostUri language = some document := by
    intro document member
    rw [named] at member
    obtain ⟨stored, sameLanguage⟩ := List.mem_filter.mp member
    have documentHeld := (linked.store.mem_allDocuments document).mp stored
    rw [of_decide_eq_true sameLanguage] at documentHeld
    exact documentHeld
  obtain ⟨after, isAfter, keeps, states, told⟩ := linked.syncAll found held
  refine ⟨after, isAfter, ?_, ?_⟩
  · refine ⟨keeps.sound, keeps.store, keeps.root, keeps.current, ?_,
      (extended.effects.mono fun _ => Effect.Plain.noRequest).trans keeps.effects⟩
    intro host wanted document wantedHeld wantedTold
    by_cases same : wanted = language
    · subst same
      obtain ⟨⟨sameLanguage, sameHost⟩, _⟩ := sound.store.named wantedHeld
      have stored : document ∈ (bridge.setLink server link).store.allDocuments :=
        (linked.store.mem_allDocuments document).mpr
          (by rw [sameHost, sameLanguage]; exact wantedHeld)
      rw [← sameHost]
      refine told document (List.mem_filter.mpr ⟨stored, ?_⟩)
      rw [named, sameLanguage]
      exact decide_eq_true rfl
    · refine keeps.told host wanted document wantedHeld (sound.told_other found same ?_ wantedTold)
      exact (extended.effects.mono fun _ => Effect.Plain.quiet).shown_eq wanted
  · intro wanted different
    exact SameState.trans (sound.sameState found fun same => absurd same different) (states wanted)
      fun _ => id

end Sound

/-! ### Things that reach no child server -/

/-- What no child server notices. -/
structure Aside (before after : Bridge) : Prop where
  servers : after.servers = before.servers
  current : after.current = before.current
  store : after.store = before.store
  root : after.root = before.root
  clients : after.wire.clients = before.wire.clients
  effects : before.wire.Adds Effect.Silent after.wire

namespace Aside

theorem refl (bridge : Bridge) : bridge.Aside bridge :=
  ⟨rfl, rfl, rfl, rfl, rfl, .refl _⟩

theorem trans (first : before.Aside middle) (second : middle.Aside after) : before.Aside after :=
  ⟨second.servers.trans first.servers, second.current.trans first.current,
    second.store.trans first.store, second.root.trans first.root,
    second.clients.trans first.clients, first.effects.trans second.effects⟩

theorem shown_eq (aside : before.Aside after) (language : String) (client : Nat)
    (aliasUri : String) : shown language client aliasUri after.wire.effects =
      shown language client aliasUri before.wire.effects :=
  (aside.effects.mono fun _ => Effect.Silent.quiet).shown_eq language client aliasUri

theorem link (aside : before.Aside after) (server : Nat) :
    after.link server = ⟨(before.link server).server, after.wire⟩ := by
  rw [Bridge.link, aside.servers]
  rfl

theorem sameState (aside : before.Aside after) (language : String) :
    SameState language before after := by
  intro server _
  rw [aside.link]
  exact ⟨rfl, rfl⟩

theorem told (aside : before.Aside after) {host language : String} {document : Document}
    (told : before.Told host language document) : after.Told host language document := by
  intro server client aliasUri found up encoded
  rw [aside.link] at up
  rw [aside.shown_eq]
  exact told server client aliasUri (aside.current ▸ found) up encoded

theorem sound (aside : before.Aside after) (sound : before.Sound) : after.Sound := by
  refine ⟨aside.store ▸ sound.store, ?_, aside.current ▸ sound.distinct, ?_, ?_⟩
  · intro language server found
    obtain ⟨within, linkSound⟩ := sound.servers language server (aside.current ▸ found)
    rw [aside.servers, aside.store, aside.root, aside.link]
    exact ⟨within, linkSound.rewired (aside.shown_eq language)⟩
  · intro effect member
    obtain ⟨more, same, silent⟩ := aside.effects
    rw [same] at member
    rw [aside.clients]
    rcases List.mem_append.mp member with old | new
    · exact sound.effects effect old
    · exact (silent effect new).below _
  · intro language server found client held
    rw [aside.link] at held
    rw [aside.clients]
    exact sound.clients language server (aside.current ▸ found) client held

theorem keeps (aside : before.Aside after) (sound : before.Sound) :
    before.Keeps Effect.Silent after :=
  ⟨aside.sound sound, aside.store, aside.root, fun _ _ found => aside.current ▸ found,
    fun _ _ _ _ => aside.told, aside.effects⟩

theorem announce (bridge : Bridge) (uri : String) (diagnostics : List Diagnostic) :
    bridge.Aside (bridge.announce uri diagnostics) := by
  unfold Bridge.announce
  split
  · exact ⟨rfl, rfl, rfl, rfl, rfl, .emit _ trivial⟩
  · exact .refl _

end Aside

/-! ### New servers -/

section AddServer

variable {language wanted : String} {server : Nat} {command : List String}

theorem addServer_link (found : server < bridge.servers.length) :
    (bridge.addServer language command).link server = bridge.link server := by
  simp [Bridge.link, Bridge.addServer, List.getD_eq_getElem?_getD, List.getElem?_append_left found]

theorem addServer_link_new :
    ((bridge.addServer language command).link bridge.servers.length).server =
      { language := language, command := command,
        settings := bridge.config.settingsFor language, editor := bridge.editor } := by
  simp [Bridge.link, Bridge.addServer]

theorem addServer_current_cases
    (found : (bridge.addServer language command).current.get? wanted = some server) :
    (wanted = language ∧ server = bridge.servers.length) ∨
      bridge.current.get? wanted = some server :=
  (Table.of_get?_put found).imp_right And.right

theorem addServer_current (absent : bridge.current.get? language = none)
    (found : bridge.current.get? wanted = some server) :
    (bridge.addServer language command).current.get? wanted = some server := by
  simp only [Bridge.addServer, Table.get?_put]
  split
  · rename_i same
    rw [same, absent] at found
    contradiction
  · exact found

theorem Sound.addServer (sound : bridge.Sound) (absent : bridge.current.get? language = none)
    (command : List String) :
    (∀ kind, bridge.Keeps kind (bridge.addServer language command)) ∧
      ∀ wanted, SameState wanted bridge (bridge.addServer language command) := by
  have oldLink : ∀ wanted server, bridge.current.get? wanted = some server →
      (bridge.addServer language command).link server = bridge.link server :=
    fun wanted server found => addServer_link (sound.servers wanted server found).1
  refine ⟨fun kind => ⟨⟨sound.store, ?_, sound.distinct.put _ _, sound.effects, ?_⟩, rfl, rfl,
    fun _ _ => addServer_current absent, ?_, .refl _⟩, ?_⟩
  · intro wanted server found
    rcases addServer_current_cases found with ⟨rfl, rfl⟩ | old
    · refine ⟨by simp [Bridge.addServer], ?_⟩
      constructor
      case idle => simp only [addServer_link_new]; exact fun _ _ => rfl
      case aliases => simp only [addServer_link_new]; exact fun _ isOpen => by cases isOpen
      all_goals simp [addServer_link_new]
    · obtain ⟨within, linkSound⟩ := sound.servers wanted server old
      rw [oldLink wanted server old]
      exact ⟨by simp only [Bridge.addServer, List.length_append, List.length_singleton]; omega,
        linkSound⟩
  · intro wanted server found client held
    rcases addServer_current_cases found with ⟨rfl, rfl⟩ | old
    · simp [addServer_link_new] at held
    · rw [oldLink wanted server old] at held
      exact sound.clients wanted server old client held
  · intro host wanted document _ told server client aliasUri found up encoded
    rcases addServer_current_cases found with ⟨rfl, rfl⟩ | old
    · simp [Link.client?, addServer_link_new] at up
    · rw [oldLink wanted server old] at up
      exact told server client aliasUri old up encoded
  · intro wanted server found
    rw [oldLink wanted server found]
    exact ⟨rfl, rfl⟩

end AddServer

theorem findServer_some {language : String} {server : Nat}
    (found : bridge.findServer language = (after, some server)) :
    after.current.get? language = some server := by
  unfold Bridge.findServer at found
  split at found
  · rename_i present
    cases found
    exact present
  · split at found
    · cases found
    · cases found
      exact (Table.get?_put _ _ _ _).trans (if_pos rfl)

theorem findServer_none {language : String} (missing : bridge.findServer language = (after, none)) :
    bridge.current.get? language = none := by
  unfold Bridge.findServer at missing
  split at missing
  · cases missing
  · assumption

end Bridge

end LanguageBridge
