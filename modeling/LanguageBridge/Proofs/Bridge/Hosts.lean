import LanguageBridge.Proofs.Bridge.Documents

namespace LanguageBridge

/-! What becomes of the child servers when a host is opened, edited or closed. -/

namespace Bridge

variable {bridge before middle after : Bridge} {host : String}

/-- In a store where one host went on no child server is ahead. -/
theorem Sound.advance (sound : bridge.Sound) {later : Store} (proper : later.Proper)
    (advances : Store.Advances host bridge.store later) :
    ({ bridge with store := later } : Bridge).Sound := by
  refine ⟨proper, ?_, sound.distinct, sound.effects, sound.clients⟩
  intro language server found
  obtain ⟨within, linkSound⟩ := sound.servers language server found
  refine ⟨within, linkSound.advanced fun wanted document held => ?_⟩
  by_cases same : wanted = host
  · subst same
    exact advances.follows language document held
  · exact ⟨document, (advances.others wanted language same).trans held, Or.inl rfl⟩

/-! ### Closing -/

/-- The child server of a language does not have the document of a host open. -/
def Gone (bridge : Bridge) (host language : String) : Prop :=
  ∀ server client aliasUri, bridge.current.get? language = some server →
    (bridge.link server).server.client = some client →
      Alias.encode host language = .ok aliasUri →
        shown language client aliasUri bridge.wire.effects = none

structure Closes (host : String) (store : Store) (before after : Bridge) : Prop where
  sound : after.Sound
  store : after.store = store
  root : after.root = before.root
  current : after.current = before.current
  states : ∀ language, SameState language before after
  told : ∀ wanted language document, wanted ≠ host → before.Told wanted language document →
    after.Told wanted language document
  effects : before.wire.Adds Effect.NoRequest after.wire

theorem Closes.trans {first second : Store} (one : Closes host first before middle)
    (two : Closes host second middle after) : Closes host second before after where
  sound := two.sound
  store := two.store
  root := two.root.trans one.root
  current := two.current.trans one.current
  states := fun language => (one.states language).trans (two.states language)
    fun _ found => one.current ▸ found
  told := fun wanted language document different told =>
    two.told wanted language document different (one.told wanted language document different told)
  effects := one.effects.trans two.effects

theorem Sound.closeDocument (sound : bridge.Sound) {language aliasUri : String} {server : Nat}
    (found : bridge.current.get? language = some server)
    (encoded : Alias.encode host language = .ok aliasUri) :
    Closes host bridge.store bridge
      (bridge.setLink server ((bridge.link server).closeDocument aliasUri)) := by
  have linkSound := (sound.servers language server found).2
  have tells := (bridge.link server).closeDocument_tells aliasUri
  exact ⟨sound.setLink_tells found tells (linkSound.closeDocument encoded), rfl, rfl, rfl,
    fun wanted => sound.sameState found fun _ => ⟨tells.client, tells.started⟩,
    fun _ _ _ different => sound.told_tells found encoded tells (Or.inl different), tells.noRequest⟩

theorem Sound.closeDocument_gone (sound : bridge.Sound) {language aliasUri : String} {server : Nat}
    (found : bridge.current.get? language = some server)
    (encoded : Alias.encode host language = .ok aliasUri) {wanted : String}
    (gone : wanted = language ∨ bridge.Gone host wanted) :
    (bridge.setLink server ((bridge.link server).closeDocument aliasUri)).Gone host wanted := by
  have linkSound := (sound.servers language server found).2
  have tells := (bridge.link server).closeDocument_tells aliasUri
  intro wantedServer client wantedAlias wantedFound held wantedEncoded
  rw [sound.link_setLink found wantedFound] at held
  split at held
  · rename_i same
    subst same
    rw [tells.client] at held
    cases encoded.symm.trans wantedEncoded
    exact linkSound.closeDocument_shown held aliasUri
  · rename_i different
    have named := linkSound.named
    exact (tells.shown_other (Or.inl (named ▸ different)) client).trans
      (gone.resolve_left different wantedServer client wantedAlias wantedFound held wantedEncoded)

theorem Sound.closeDocuments {documents : List Document} (sound : bridge.Sound)
    (given : ∀ document ∈ documents, host ≠ "" ∧ document.language ≠ "") :
    ∃ after, Bridge.closeDocuments host documents bridge = (after, .ok ()) ∧
      Closes host bridge.store bridge after ∧
        ∀ language, (language ∈ documents.map Document.language ∨ bridge.Gone host language) →
          after.Gone host language := by
  induction documents generalizing bridge with
  | nil =>
    exact ⟨bridge, rfl,
      ⟨sound, rfl, rfl, rfl, fun _ _ _ => ⟨rfl, rfl⟩, fun _ _ _ _ => id, .refl _⟩,
      fun _ gone => gone.resolve_left (by simp)⟩
  | cons document rest ih =>
    have givenRest := fun other member => given other (List.mem_cons_of_mem document member)
    unfold Bridge.closeDocuments
    cases found : bridge.current.get? document.language with
    | none =>
      obtain ⟨after, isAfter, closes, gone⟩ := ih sound givenRest
      refine ⟨after, isAfter, closes, fun language closed => gone language ?_⟩
      rw [List.map_cons, List.mem_cons, or_assoc] at closed
      rcases closed with rfl | later
      · exact Or.inr fun server _ _ present => by rw [found] at present; contradiction
      · exact later
    | some server =>
      obtain ⟨hostGiven, languageGiven⟩ := given document List.mem_cons_self
      obtain ⟨aliasUri, encoded⟩ := Alias.exists_encode hostGiven languageGiven
      have closesFirst := sound.closeDocument found encoded
      obtain ⟨after, isAfter, closesRest, gone⟩ := ih closesFirst.sound givenRest
      refine ⟨after, by simp only [encoded]; exact isAfter, closesFirst.trans closesRest,
        fun language closed => gone language ?_⟩
      rw [List.map_cons, List.mem_cons] at closed
      rcases closed with (rfl | inRest) | before
      · exact Or.inr (sound.closeDocument_gone found encoded (Or.inl rfl))
      · exact Or.inl inRest
      · exact Or.inr (sound.closeDocument_gone found encoded (Or.inr before))

/-- The child servers are closed without a look at the store. -/
theorem closeDocuments_withStore (store : Store) (documents : List Document) (bridge : Bridge) :
    closeDocuments host documents { bridge with store := store } =
      ({ (closeDocuments host documents bridge).1 with store := store },
        (closeDocuments host documents bridge).2) := by
  induction documents generalizing bridge with
  | nil => rfl
  | cons document rest ih =>
    simp only [closeDocuments]
    split
    · exact ih bridge
    · split
      · rfl
      · exact ih (bridge.setLink _ _)

theorem Sound.closeHost (sound : bridge.Sound) (host : String) :
    ∃ after, bridge.closeHost host = (after, .ok ()) ∧
      Closes host (bridge.store.close host) bridge after := by
  have given : ∀ document ∈ bridge.store.documents host, host ≠ "" ∧ document.language ≠ "" :=
    fun document member => (sound.store.named (sound.store.get?_of_mem_documents member)).2
  obtain ⟨closed, isClosed, closes, gone⟩ := sound.closeDocuments given
  have closedSound : ({ closed with store := bridge.store.close host } : Bridge).Sound := by
    refine ⟨sound.store.close host, ?_, closes.sound.distinct, closes.sound.effects,
      closes.sound.clients⟩
    intro language server found
    obtain ⟨within, linkSound⟩ := closes.sound.servers language server found
    refine ⟨within, linkSound.named, linkSound.idle, linkSound.up, linkSound.agrees,
      linkSound.aliases, ?_⟩
    intro client held wanted aliasUri version text encoded isShown
    obtain ⟨document, documentHeld, notNewer⟩ :=
      linkSound.known client held wanted aliasUri version text encoded isShown
    rw [closes.store] at documentHeld
    refine ⟨document, ?_, notNewer⟩
    rw [Store.get?_close, if_neg, documentHeld]
    rintro rfl
    obtain ⟨⟨rfl, _⟩, _⟩ := sound.store.named documentHeld
    have member := List.mem_map_of_mem (f := Document.language) (Store.mem_documents documentHeld)
    have nothing := gone document.language (Or.inl member) server client aliasUri found held encoded
    exact absurd (nothing.symm.trans isShown) (by simp)
  -- the rest is seen by no child server
  have aside := Aside.announce
    { closed with
      store := bridge.store.close host
      router := closed.router.forgetHost host
      diagnostics := closed.diagnostics.erase host } host []
  have closesAll : Closes host (bridge.store.close host) bridge
      { closed with
        store := bridge.store.close host
        router := closed.router.forgetHost host
        diagnostics := closed.diagnostics.erase host } :=
    ⟨⟨closedSound.store, closedSound.servers, closedSound.distinct, closedSound.effects,
      closedSound.clients⟩, rfl, closes.root, closes.current, closes.states, closes.told,
      closes.effects⟩
  refine ⟨_, ?_, closesAll.trans ⟨aside.sound closesAll.sound, aside.store, aside.root, aside.current,
    aside.sameState, fun _ _ _ _ => aside.told, aside.effects.mono fun _ => Effect.Silent.noRequest⟩⟩
  simp only [Bridge.closeHost, closeDocuments_withStore, isClosed]

end Bridge

end LanguageBridge
