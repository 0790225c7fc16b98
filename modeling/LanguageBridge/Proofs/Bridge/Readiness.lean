import Mathlib
import LanguageBridge.Proofs.Bridge.Interleaving

namespace LanguageBridge

/-! What a child server knows about a document when it is asked about it. -/

namespace Run

/-- What a child server that is up may know about a document: the present text, unless a handler
owes it the document. It may then know nothing or an older version. It knows nothing of a document
that is not there. -/
def Informed (run : Run) (host language : String) (known : Option (Int × String)) : Prop :=
  match run.bridge.store.get? host language with
  | none => known = none
  | some document =>
    known = some (document.version, document.text) ∨
      (run.Owes host language ∧
        ∀ version text, known = some (version, text) → version < document.version)

theorem Sound.informed {confined : Prop} {run : Run} (sound : run.Sound confined)
    (settled : run.Settled) {host language aliasUri : String} {server client : Nat}
    (found : run.bridge.current.get? language = some server)
    (up : (run.bridge.link server).client? = some client)
    (encoded : Alias.encode host language = .ok aliasUri) :
    run.Informed host language (shown language client aliasUri run.bridge.wire.effects) := by
  have held := (Link.client?_eq_some.mp up).2
  have known := fun version text => (sound.bridge.servers language server found).2.known client held
    host aliasUri version text encoded
  unfold Informed
  split
  · rename_i absent
    cases isShown : shown language client aliasUri run.bridge.wire.effects with
    | none => rfl
    | some pair =>
      obtain ⟨document, documentHeld, _⟩ := known pair.1 pair.2 isShown
      rw [absent] at documentHeld
      contradiction
  · rename_i document documentHeld
    rcases settled host language document documentHeld with told | owed
    · exact Or.inl (told server client aliasUri found up encoded)
    · by_cases present : shown language client aliasUri run.bridge.wire.effects =
          some (document.version, document.text)
      · exact Or.inl present
      · refine Or.inr ⟨owed, fun version text isShown => ?_⟩
        obtain ⟨other, otherHeld, notNewer, sameText⟩ := known version text isShown
        cases documentHeld.symm.trans otherHeld
        -- a version has one text only
        have different : version ≠ document.version := by
          intro same
          apply present
          rw [isShown, sameText same, same]
        omega

variable {config : Config} {padding : Padding} {names : LanguageNames} {rules : Option (List Rule)}
  {root : Option String} {publishes : Bool} {editor : Editor} {events : List BridgeEvent} {run : Run}

/-- Whenever a child server is asked about a document it has the present text of the document, or a
handler of the host owes it the document. -/
theorem request_meets_document (reached : Reached act Admits
      (fresh config padding names rules root publishes editor) events run)
    {event : BridgeEvent} (admitted : run.Admits event) {sent rest : List Effect} {child : String}
    {client : Nat} {method : Method} {params : Params}
    (asked : (run.act event).bridge.wire.effects =
      sent ++ .sent child client (.request method params) :: rest)
    (now : run.bridge.wire.effects.length ≤ sent.length) {host language aliasUri : String}
    (encoded : Alias.encode host language = .ok aliasUri)
    (about : params.uri = .ok (.str aliasUri)) :
    child = language ∧
      (run.act event).Informed host language (shown language client aliasUri sent) := by
  obtain ⟨sound, settled⟩ := reached_settled reached
  rcases sound.act settled admitted with told | goes
  · -- an event that brings documents sends no request
    have noRequest := told.effects.since asked now _ List.mem_cons_self
    exact absurd noRequest (by simp [Effect.NoRequest, ChildMessage.isRequest])
  · have routed := goes.effects.since asked now
    obtain ⟨⟨server, found, up⟩, otherHost, otherAlias, otherEncoded, otherAbout⟩ :=
      (routed _ List.mem_cons_self).2 child client method params rfl
    cases about.symm.trans otherAbout
    obtain ⟨rfl, rfl⟩ := Alias.encode_injective encoded otherEncoded
    -- an event that sends one says nothing about documents afterwards
    have sameShown : shown language client aliasUri (run.act event).bridge.wire.effects =
        shown language client aliasUri sent := by
      rw [asked]
      exact shown_append_quiet (fun effect member => (routed effect member).1) _ _ _
    exact ⟨rfl, sameShown ▸ goes.sound.informed goes.settled found up encoded⟩

/-! ### Two hosts

The first one has brought up a child server. The second one has a document for it as well, but waits
for another child server that comes before. -/

def noHost : Run :=
  fresh { servers := ⟨[("json", ["j"]), ("python", ["p"])]⟩ } .compact .standard none none true .absent

def oneHost : Run :=
  (noHost.submit (.openHost "a" "```python\nx\n```" (some "markdown"))).2

def slowStart : Run :=
  oneHost.prepare (.child "json") .spawn [.hold (some "slow")]

def twoHosts : Run :=
  (slowStart.submit (.openHost "b" "```json\n1\n```\n```python\ny\n```" (some "markdown"))).2

def hover (uri : String) (line : Int) : BridgeCommand :=
  .dispatch uri ⟨line, 0⟩ .hover (.document
    { type := "HoverParams", document := { type := "TextDocumentIdentifier", uri := uri },
      position := some ⟨line, 0⟩ })

/-- What a request becomes that is routed to the first line of a document. -/
def hovered (aliasUri : String) : Params :=
  .document
    { type := "HoverParams", document := { type := "TextDocumentIdentifier", uri := aliasUri },
      position := some ⟨0, 0⟩ }

/-- The same without cancellations. -/
def AdmitsCalmly (run : Run) (event : BridgeEvent) : Prop :=
  run.Admits event ∧ ∀ task, event ≠ .cancel task

theorem twoHosts_calm : ∃ events, Reached act AdmitsCalmly noHost events twoHosts := by
  have languages : (noHost.bridge.store.openHost "a" "```python\nx\n```"
      (some "markdown")).languages "a" = ["python"] := by cbv
  have moreLanguages : (slowStart.bridge.store.openHost "b"
      "```json\n1\n```\n```python\ny\n```" (some "markdown")).languages "b" =
        ["json", "python"] := by cbv
  have steps : ∀ run : Run, run.AdmitsCalmly .step := fun _ =>
    ⟨trivial, fun _ other => by cases other⟩
  obtain ⟨_, one⟩ : ∃ events, Reached act AdmitsCalmly noHost events oneHost :=
    reached_submit steps .start _
      ⟨⟨by decide, rfl, by simp [languages]⟩, fun _ other => by cases other⟩
  have untracked : slowStart.bridge.store.hosts.get? "b" = none := by cbv
  have slow : Reached act AdmitsCalmly noHost _ slowStart :=
    .step one (.prepare _ _ _) ⟨trivial, fun _ other => by cases other⟩
  exact reached_submit steps slow _
    ⟨⟨by decide, untracked, by rw [moreLanguages]; decide⟩, fun _ other => by cases other⟩

theorem twoHosts_reached : ∃ events, Reached act Admits noHost events twoHosts := by
  obtain ⟨events, reached⟩ := twoHosts_calm
  exact ⟨events, reached.mono fun _ _ => And.left⟩

/-- One document was brought to a child server, and nothing was said about any other. -/
theorem twoHosts_effects : twoHosts.bridge.wire.effects =
    [.sent "python" 0 (.create "polyglot-lsp-python"), .sent "python" 0 (.spawn ["p"]),
      .sent "python" 0 (.handshake none "" none), .sent "python" 0 .ready,
      .sent "python" 0 (.didOpen "otter://a/python" "python" 1 "x\n"), .published "a" [],
      .sent "json" 1 (.create "polyglot-lsp-json"), .sent "json" 1 (.spawn ["j"])] := by
  cbv

/-- The second host is still waiting, and the document of the first one is up to date. -/
theorem request_meets_document_of_first_host :
    (twoHosts.act (.command (hover "a" 1))).bridge.wire.effects =
        twoHosts.bridge.wire.effects ++
          [.sent "python" 0 (.request .hover (hovered "otter://a/python"))] ∧
      shown "python" 0 "otter://a/python" twoHosts.bridge.wire.effects = some (1, "x\n") ∧
        (twoHosts.act (.command (hover "a" 1))).Informed "a" "python" (some (1, "x\n")) := by
  obtain ⟨events, reached⟩ := twoHosts_reached
  have asked : (twoHosts.act (.command (hover "a" 1))).bridge.wire.effects =
      twoHosts.bridge.wire.effects ++
        [.sent "python" 0 (.request .hover (hovered "otter://a/python"))] := by cbv
  have isShown : shown "python" 0 "otter://a/python" twoHosts.bridge.wire.effects =
      some (1, "x\n") := by
    rw [twoHosts_effects]
    rfl
  have encoded : Alias.encode "a" "python" = .ok "otter://a/python" := by cbv
  have admitted : twoHosts.Admits (.command (hover "a" 1)) := trivial
  have met := request_meets_document reached admitted asked (Nat.le_refl _) encoded rfl
  exact ⟨asked, isShown, isShown ▸ met.2⟩

/-- The document of the second host is there, and the child server is asked about it, but has never
heard of it. -/
theorem request_ahead_of_document :
    (∃ events, Reached act Admits noHost events twoHosts) ∧
      (twoHosts.act (.command (hover "b" 4))).bridge.wire.effects =
        twoHosts.bridge.wire.effects ++
          [.sent "python" 0 (.request .hover (hovered "otter://b/python"))] ∧
      Alias.encode "b" "python" = .ok "otter://b/python" ∧
      ((twoHosts.act (.command (hover "b" 4))).bridge.store.get? "b" "python").map
        Document.text = some "y\n" ∧
      shown "python" 0 "otter://b/python" twoHosts.bridge.wire.effects = none := by
  refine ⟨twoHosts_reached, by cbv, by cbv, by cbv, ?_⟩
  rw [twoHosts_effects]
  rfl

end Run

end LanguageBridge
