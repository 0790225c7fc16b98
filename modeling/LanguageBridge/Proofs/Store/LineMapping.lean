import LanguageBridge.Proofs.Bisection
import LanguageBridge.Proofs.Store.Refinement

namespace LanguageBridge

/-! Lines of a host and lines of a synthetic document. Inside the chunks the two are in step, and
outside of them neither side has a counterpart. -/

/-! ### One document -/

namespace Document

/-- A document whose chunks follow one another, with the starts that belong to them. -/
structure Mapped (document : Document) : Prop where
  laid : ChunksLaid document.chunks
  syntheticStarts : document.syntheticStarts = document.chunks.map Chunk.syntheticStart
  hostStarts : document.hostStarts = document.chunks.map Chunk.hostStart

variable {document : Document}

section

variable (mapped : document.Mapped)
include mapped

theorem setLayout_mapped {layout : Layout} (laid : ChunksLaid layout.chunks) :
    (document.setLayout layout).Mapped := by
  unfold setLayout
  split
  · exact mapped
  · exact ⟨laid, rfl, rfl⟩

theorem chunkAtSynthetic?_eq_some {line : Int} {chunk : Chunk} :
    document.chunkAtSynthetic? line = some chunk ↔
      chunk ∈ document.chunks ∧ chunk.syntheticStart ≤ line ∧ line ≤ chunk.syntheticEnd := by
  have valid : ∀ chunk ∈ document.chunks, chunk.syntheticStart ≤ chunk.syntheticEnd := by
    intro chunk member
    have := mapped.laid.valid chunk member
    simp only [Chunk.syntheticEnd, Chunk.lineCount]
    omega
  rw [chunkAtSynthetic?, mapped.syntheticStarts,
    Bisection.filter_lookUp?_eq_find? valid mapped.laid.syntheticApart,
    Bisection.find?_eq_some_iff mapped.laid.syntheticApart]

theorem chunkAtHost?_eq_some {line : Int} {chunk : Chunk} :
    document.chunkAtHost? line = some chunk ↔
      chunk ∈ document.chunks ∧ chunk.hostStart ≤ line ∧ line ≤ chunk.hostEnd := by
  rw [chunkAtHost?, mapped.hostStarts,
    Bisection.filter_lookUp?_eq_find? mapped.laid.valid mapped.laid.hostApart,
    Bisection.find?_eq_some_iff mapped.laid.hostApart]

theorem toHost_eq_ok {place found : Position} :
    document.toHost place = .ok found ↔
      ∃ chunk ∈ document.chunks,
        (chunk.syntheticStart ≤ place.line ∧ place.line ≤ chunk.syntheticEnd) ∧
          found = ⟨chunk.hostStart + (place.line - chunk.syntheticStart), place.character⟩ := by
  unfold toHost
  constructor
  · intro ok
    split at ok
    · rename_i chunk held
      cases ok
      obtain ⟨member, inside⟩ := (chunkAtSynthetic?_eq_some mapped).mp held
      exact ⟨chunk, member, inside, rfl⟩
    · contradiction
  · rintro ⟨chunk, member, inside, rfl⟩
    rw [(chunkAtSynthetic?_eq_some mapped).mpr ⟨member, inside⟩]

theorem toSynthetic_eq_ok {place found : Position} :
    document.toSynthetic place = .ok found ↔
      ∃ chunk ∈ document.chunks,
        (chunk.hostStart ≤ place.line ∧ place.line ≤ chunk.hostEnd) ∧
          found = ⟨chunk.syntheticStart + (place.line - chunk.hostStart), place.character⟩ := by
  unfold toSynthetic
  constructor
  · intro ok
    split at ok
    · rename_i chunk held
      cases ok
      obtain ⟨member, inside⟩ := (chunkAtHost?_eq_some mapped).mp held
      exact ⟨chunk, member, inside, rfl⟩
    · contradiction
  · rintro ⟨chunk, member, inside, rfl⟩
    rw [(chunkAtHost?_eq_some mapped).mpr ⟨member, inside⟩]

theorem toSynthetic_of_toHost {place found : Position} (ok : document.toHost place = .ok found) :
    document.toSynthetic found = .ok place := by
  obtain ⟨chunk, member, inside, rfl⟩ := (toHost_eq_ok mapped).mp ok
  simp only [Chunk.syntheticEnd, Chunk.lineCount] at inside
  refine (toSynthetic_eq_ok mapped).mpr ⟨chunk, member, by simp only; omega, ?_⟩
  rw [Position.mk.injEq]
  exact ⟨by simp only; omega, rfl⟩

theorem toHost_of_toSynthetic {place found : Position}
    (ok : document.toSynthetic place = .ok found) : document.toHost found = .ok place := by
  obtain ⟨chunk, member, inside, rfl⟩ := (toSynthetic_eq_ok mapped).mp ok
  refine (toHost_eq_ok mapped).mpr
    ⟨chunk, member, by simp only [Chunk.syntheticEnd, Chunk.lineCount]; omega, ?_⟩
  rw [Position.mk.injEq]
  exact ⟨by simp only; omega, rfl⟩

theorem toHost_increasing {place other found foundOther : Position}
    (ok : document.toHost place = .ok found) (okOther : document.toHost other = .ok foundOther)
    (less : place.line < other.line) : found.line < foundOther.line := by
  obtain ⟨chunk, member, inside, rfl⟩ := (toHost_eq_ok mapped).mp ok
  obtain ⟨chunkOther, memberOther, insideOther, rfl⟩ := (toHost_eq_ok mapped).mp okOther
  rcases mapped.laid.order member memberOther with same | before | behind
  · subst same
    simp only
    omega
  · simp only [Chunk.syntheticEnd, Chunk.lineCount] at inside insideOther before ⊢
    omega
  · simp only [Chunk.syntheticEnd, Chunk.lineCount] at inside insideOther behind
    have := mapped.laid.valid chunk member
    omega

end

theorem toHost_error {place : Position} {fault : Fault}
    (failed : document.toHost place = .error fault) :
    fault = .positionOutOfRange document.language place.line := by
  unfold toHost at failed
  split at failed
  · contradiction
  · cases failed
    rfl

theorem toSynthetic_error {place : Position} {fault : Fault}
    (failed : document.toSynthetic place = .error fault) :
    fault = .noSyntheticRegion (some document.language) place.line := by
  unfold toSynthetic at failed
  split at failed
  · contradiction
  · cases failed
    rfl

end Document

/-! ### All documents of a host -/

namespace Host

def Mapped (host : Host) : Prop :=
  ∀ language document, host.documents.get? language = some document → document.Mapped

variable {settings : Store} {padding : Padding} {host : Host} {uri : String}

theorem Current.layoutOf_laid (current : host.Current settings) (padding : Padding)
    (language : String) : ChunksLaid (host.layoutOf padding language).chunks :=
  Layout.below_laid 0 none (current.enclosed language) (current.apart language)

theorem rebuild_mapped (current : host.Current settings) (mapped : host.Mapped)
    (language : String) : (host.rebuild padding uri language).Mapped := by
  intro wanted document found
  rw [rebuild_get?] at found
  split at found
  · cases found
    have before : (host.documentOf uri language).Mapped := by
      unfold documentOf
      cases held : host.documents.get? language with
      | none => exact ⟨ChunksLaid.nil, rfl, rfl⟩
      | some document => exact mapped language document held
    exact Document.setLayout_mapped before (current.layoutOf_laid padding language)
  · exact mapped wanted document found

/-- What is needed to map lines, and rebuilding keeps. -/
structure Mapping (settings : Store) (uri : String) (host : Host) : Prop where
  current : host.Current settings
  named : host.Named uri
  mapped : host.Mapped

theorem Mapping.rebuild (mapping : host.Mapping settings uri) (language : String) :
    (host.rebuild padding uri language).Mapping settings uri where
  current := ⟨mapping.current.lines, mapping.current.extraction⟩
  named := rebuild_named mapping.named language
  mapped := rebuild_mapped mapping.current mapping.mapped language

theorem Mapping.rebuildAll (mapping : host.Mapping settings uri) (languages : List String) :
    (host.rebuildAll padding uri languages).Mapping settings uri :=
  rebuildAll_preserves (fun host => host.Mapping settings uri) languages
    (fun _ language held => held.rebuild language) mapping

end Host

/-! ### Every document of a reached store -/

namespace Store

variable {settings store : Store} {allowed : Store → StoreStep → Prop}
  {history : List StoreStep} {uri language : String} {host : Host}

theorem openedHost_mapping (store : Store) (uri text : String) (languageId : Option String) :
    (store.openedHost uri text languageId).Mapping store uri := by
  refine Host.Mapping.rebuildAll ⟨⟨rfl, rfl⟩, ?_, ?_⟩ _
  · intro language document found
    cases found
  · intro language document found
    cases found

theorem reached_mapping (reached : Reached apply allowed settings history store)
    (empty : settings.hosts = .empty) (found : store.hosts.get? uri = some host) :
    host.Mapping settings uri := by
  refine reached_hosts reached empty (fun uri host => host.Mapping settings uri) ?_ ?_ ?_ found
  · intro store same uri text languageId
    have opened := openedHost_mapping store uri text languageId
    exact ⟨opened.current.transfer same, opened.named, opened.mapped⟩
  · intro store same uri old text changed _ _ held
    exact Host.Mapping.rebuildAll
      ⟨(retexted_current store old text).transfer same, held.named, held.mapped⟩ _
  · intro store _ uri old language held
    exact held.rebuild language

/-- A line of the document of a language that one of its chunks holds. -/
def HeldInDocument (store : Store) (uri language : String) (line : Int) : Prop :=
  ∃ document, store.get? uri language = some document ∧
    ∃ chunk ∈ document.chunks, chunk.syntheticStart ≤ line ∧ line ≤ chunk.syntheticEnd

/-- A line of a host that a chunk of a language holds. -/
def HeldInHost (store : Store) (uri language : String) (line : Int) : Prop :=
  ∃ document, store.get? uri language = some document ∧
    ∃ chunk ∈ document.chunks, chunk.hostStart ≤ line ∧ line ≤ chunk.hostEnd

/-- The lines of a host and of the document of a language, as the store maps them: exactly the lines
in chunks have a counterpart, the two directions undo each other, columns stay and so does the
order. -/
structure LinesPaired (store : Store) (uri language : String) : Prop where
  toHost_ok : ∀ place, (∃ found, store.toHost uri language place = .ok found) ↔
    store.HeldInDocument uri language place.line
  toSynthetic_ok : ∀ place, (∃ found, store.toSynthetic uri language place = .ok found) ↔
    store.HeldInHost uri language place.line
  there_and_back : ∀ place found, store.toHost uri language place = .ok found →
    found.character = place.character ∧ store.toSynthetic uri language found = .ok place
  back_and_there : ∀ place found, store.toSynthetic uri language place = .ok found →
    found.character = place.character ∧ store.toHost uri language found = .ok place
  increasing : ∀ place other found foundOther, store.toHost uri language place = .ok found →
    store.toHost uri language other = .ok foundOther → place.line < other.line →
      found.line < foundOther.line
  toHost_fault : ∀ place, ¬ store.HeldInDocument uri language place.line →
    store.toHost uri language place = .error (.positionOutOfRange language place.line)
  toSynthetic_fault : ∀ place, ¬ store.HeldInHost uri language place.line →
    store.toSynthetic uri language place = .error (.noSyntheticRegion (some language) place.line)

theorem linesPaired_of_absent (absent : store.get? uri language = none) :
    store.LinesPaired uri language := by
  have noneHeld : ∀ line, ¬ store.HeldInDocument uri language line := by
    rintro line ⟨document, found, _⟩
    rw [absent] at found
    contradiction
  have noneHeldInHost : ∀ line, ¬ store.HeldInHost uri language line := by
    rintro line ⟨document, found, _⟩
    rw [absent] at found
    contradiction
  constructor <;> simp [toHost, toSynthetic, absent, noneHeld, noneHeldInHost]

theorem linesPaired_of_mapped {document : Document}
    (found : store.get? uri language = some document) (named : document.language = language)
    (mapped : document.Mapped) : store.LinesPaired uri language := by
  have inDocument : ∀ line, store.HeldInDocument uri language line ↔
      ∃ chunk ∈ document.chunks, chunk.syntheticStart ≤ line ∧ line ≤ chunk.syntheticEnd := by
    simp [HeldInDocument, found]
  have inHost : ∀ line, store.HeldInHost uri language line ↔
      ∃ chunk ∈ document.chunks, chunk.hostStart ≤ line ∧ line ≤ chunk.hostEnd := by
    simp [HeldInHost, found]
  have toHostHere : ∀ place, store.toHost uri language place = document.toHost place := by
    simp [toHost, found]
  have toSyntheticHere :
      ∀ place, store.toSynthetic uri language place = document.toSynthetic place := by
    simp [toSynthetic, found]
  have toHost_ok : ∀ place, (∃ found, document.toHost place = .ok found) ↔
      store.HeldInDocument uri language place.line := by
    intro place
    simp only [inDocument, Document.toHost_eq_ok mapped]
    constructor
    · rintro ⟨_, chunk, member, inside, _⟩
      exact ⟨chunk, member, inside⟩
    · rintro ⟨chunk, member, inside⟩
      exact ⟨_, chunk, member, inside, rfl⟩
  have toSynthetic_ok : ∀ place, (∃ found, document.toSynthetic place = .ok found) ↔
      store.HeldInHost uri language place.line := by
    intro place
    simp only [inHost, Document.toSynthetic_eq_ok mapped]
    constructor
    · rintro ⟨_, chunk, member, inside, _⟩
      exact ⟨chunk, member, inside⟩
    · rintro ⟨chunk, member, inside⟩
      exact ⟨_, chunk, member, inside, rfl⟩
  constructor <;> intro place <;> simp only [toHostHere, toSyntheticHere]
  · exact toHost_ok place
  · exact toSynthetic_ok place
  · intro there ok
    refine ⟨?_, Document.toSynthetic_of_toHost mapped ok⟩
    obtain ⟨_, _, _, rfl⟩ := (Document.toHost_eq_ok mapped).mp ok
    rfl
  · intro back ok
    refine ⟨?_, Document.toHost_of_toSynthetic mapped ok⟩
    obtain ⟨_, _, _, rfl⟩ := (Document.toSynthetic_eq_ok mapped).mp ok
    rfl
  · intro other there thereOther ok okOther less
    exact Document.toHost_increasing mapped ok okOther less
  · intro outside
    cases result : document.toHost place with
    | ok there => exact absurd ((toHost_ok place).mp ⟨there, result⟩) outside
    | error fault => rw [Document.toHost_error result, named]
  · intro outside
    cases result : document.toSynthetic place with
    | ok there => exact absurd ((toSynthetic_ok place).mp ⟨there, result⟩) outside
    | error fault => rw [Document.toSynthetic_error result, named]

/-- In every store that can be reached, whatever ranges the updates were given. -/
theorem reached_linesPaired {padding : Padding} {names : LanguageNames}
    {rules : Option (List Rule)}
    (reached : Reached apply Anything (fresh padding names rules) history store)
    (uri language : String) : store.LinesPaired uri language := by
  cases found : store.get? uri language with
  | none => exact linesPaired_of_absent found
  | some document =>
    obtain ⟨host, tracked, held⟩ := Option.bind_eq_some_iff.mp found
    have mapping := reached_mapping reached rfl tracked
    exact linesPaired_of_mapped found (mapping.named language document held).1
      (mapping.mapped language document held)

/-- A chunk that moved down by an update that was given the wrong lines. -/
theorem linesPaired_after_wrong_range :
    ∃ history store, Reached apply Anything (fresh .compact .standard none) history store ∧
      store.LinesPaired "h" "python" ∧
      store.toHost "h" "python" ⟨0, 7⟩ = .ok ⟨2, 7⟩ ∧
      store.toSynthetic "h" "python" ⟨1, 7⟩ = .error (.noSyntheticRegion (some "python") 1) :=
  let opening : StoreStep := .openHost "h" "```python\nx\n```" none
  let edit : StoreStep := .update "h" "\n```python\nx\n```" (some ⟨9, 9⟩)
  have reached : Reached apply Anything (fresh .compact .standard none) [edit, opening]
      (((fresh .compact .standard none).apply opening).apply edit) :=
    .step (.step .start opening trivial) edit trivial
  ⟨_, _, reached, reached_linesPaired reached "h" "python", by cbv, by cbv⟩

end Store

end LanguageBridge
