import LanguageBridge.Mapping.Coordinates
import LanguageBridge.Proofs.Store.LineMapping

namespace LanguageBridge

/-! Mapped ranges lie where their language is. The documents of a store may hold an old text, but
their chunks are always those of the host, so whatever is mapped ends up in one of them. -/

theorem Position.before_iff {first second : Position} :
    first.before second = true ↔
      first.line < second.line ∨ (first.line = second.line ∧ first.character ≤ second.character) := by
  simp [before]

/-! ### The language of a line -/

theorem Extraction.languageAt?_eq_some {extraction : Extraction}
    (valid : ∀ chunk ∈ extraction.chunks, chunk.hostStart ≤ chunk.hostEnd)
    (apart : ChunksApart extraction.chunks) {line : Int} {language : String} :
    extraction.languageAt? line = some language ↔
      ∃ chunk ∈ extraction.chunksOf language, chunk.hostStart ≤ line ∧ line ≤ chunk.hostEnd := by
  have narrowed : (Bisection.lookUp? (extraction.chunks.map Chunk.hostStart) extraction.chunks
        line).filter (fun chunk => chunk.containsHost line) =
      extraction.chunks.find? fun chunk => chunk.hostStart ≤ line && line ≤ chunk.hostEnd := by
    have found := Bisection.filter_lookUp?_eq_find? valid apart line
    cases picked : Bisection.lookUp? (extraction.chunks.map Chunk.hostStart) extraction.chunks line with
    | none => rw [← found, picked, Option.filter_none, Option.filter_none]
    | some chunk =>
      rw [← found, picked, Option.filter_some, Option.filter_some]
      by_cases early : line ≤ chunk.hostEnd
      · -- what is found by halving and ends late enough starts early enough
        have held : extraction.chunks.find?
            (fun chunk => chunk.hostStart ≤ line && line ≤ chunk.hostEnd) = some chunk := by
          rw [← found, picked, Option.filter_some, if_pos (by simpa using early)]
        have inside := ((Bisection.find?_eq_some_iff apart line chunk).mp held).2
        rw [if_pos (Chunk.containsHost_iff.mpr inside), if_pos (by simpa using early)]
      · rw [if_neg (by simp [early]), if_neg (by simpa using early)]
  rw [languageAt?, narrowed, Option.map_eq_some_iff]
  simp only [Bisection.find?_eq_some_iff apart, mem_chunksOf]
  constructor
  · rintro ⟨chunk, ⟨member, inside⟩, same⟩
    exact ⟨chunk, ⟨member, same⟩, inside⟩
  · rintro ⟨chunk, ⟨member, same⟩, inside⟩
    exact ⟨chunk, ⟨member, inside⟩, same⟩

namespace Host

variable {settings : Store} {padding : Padding} {host : Host} {uri language : String}

theorem Current.languageAt?_eq_some (current : host.Current settings) {line : Int} :
    host.extraction.languageAt? line = some language ↔
      ∃ chunk ∈ host.extraction.chunksOf language,
        chunk.hostStart ≤ line ∧ line ≤ chunk.hostEnd := by
  refine Extraction.languageAt?_eq_some ?_ ?_
  · intro chunk member
    exact (current.enclosed chunk.language chunk (Extraction.mem_chunksOf.mpr ⟨member, rfl⟩)).ordered
  · rw [current.extraction]
    exact Extraction.ofText_apart _ _ _

/-! ### Chunks of documents and chunks of hosts -/

/-- The chunks of the documents are those of the host. -/
def InStep (host : Host) : Prop :=
  ∀ language document, host.documents.get? language = some document →
    document.chunks.map Chunk.unplaced = (host.extraction.chunksOf language).map Chunk.unplaced

theorem layoutOf_unplaced (host : Host) (padding : Padding) (language : String) :
    (host.layoutOf padding language).chunks.map Chunk.unplaced =
      (host.extraction.chunksOf language).map Chunk.unplaced :=
  Layout.below_unplaced _ _ _ _ _

theorem inStep_rebuildAll {languages : List String}
    (left : ∀ language document, language ∉ languages →
      host.documents.get? language = some document →
        document.chunks.map Chunk.unplaced =
          (host.extraction.chunksOf language).map Chunk.unplaced) :
    (host.rebuildAll padding uri languages).InStep := by
  intro language document found
  rw [rebuildAll_extraction]
  by_cases member : language ∈ languages
  · obtain ⟨rebuilt, there, _, sameChunks⟩ := rebuildAll_laid host padding uri member
    cases there.symm.trans found
    rw [sameChunks, layoutOf_unplaced]
  · rw [rebuildAll_other member] at found
    exact left language document member found

theorem InStep.chunk {document : Document} (inStep : host.InStep)
    (found : host.documents.get? language = some document) {chunk : Chunk}
    (member : chunk ∈ document.chunks) :
    ∃ own ∈ host.extraction.chunksOf language,
      own.hostStart = chunk.hostStart ∧ own.hostEnd = chunk.hostEnd := by
  have mapped := List.mem_map_of_mem (f := Chunk.unplaced) member
  rw [inStep language document found] at mapped
  obtain ⟨own, inHost, same⟩ := List.mem_map.mp mapped
  exact ⟨own, inHost, Chunk.host_of_unplaced same⟩

/-- A host whose documents have its chunks and map lines by them. -/
structure Grounded (settings : Store) (uri : String) (host : Host) : Prop where
  mapping : host.Mapping settings uri
  inStep : host.InStep

end Host

namespace Store

variable {store settings : Store} {uri language : String} {host : Host}

theorem updatedHost_inStep {old : Host} (inStep : old.InStep) (text : String)
    (changed : Option LineRange) : (store.updatedHost uri old text changed).InStep := by
  refine Host.inStep_rebuildAll fun language document left found => ?_
  have passed := untouched_of_not_stale left (Or.inr (Or.inr (Table.mem_keys_of_get? found)))
  cases changed with
  | none => contradiction
  | some range =>
    rw [inStep language document found, (untouched_some passed).1]
    rfl

theorem reached_inStep {allowed : Store → StoreStep → Prop} {history : List StoreStep}
    (reached : Reached apply allowed settings history store) (empty : settings.hosts = .empty)
    (found : store.hosts.get? uri = some host) : host.InStep := by
  refine reached_hosts reached empty (fun _ host => host.InStep) ?_ ?_ ?_ found
  · intro store _ uri text languageId
    refine Host.inStep_rebuildAll fun language document _ found => ?_
    cases found
  · intro store _ uri old text changed _ _ inStep
    exact updatedHost_inStep inStep text changed
  · intro store _ uri old language inStep
    change (old.rebuildAll store.padding uri [language]).InStep
    exact Host.inStep_rebuildAll fun other document _ => inStep other document

theorem reached_grounded {allowed : Store → StoreStep → Prop} {history : List StoreStep}
    (reached : Reached apply allowed settings history store) (empty : settings.hosts = .empty)
    (found : store.hosts.get? uri = some host) : host.Grounded settings uri :=
  ⟨reached_mapping reached empty found, reached_inStep reached empty found⟩

/-! ### Mapped ranges -/

/-- The line right behind a chunk of a language. -/
def FollowsChunk (store : Store) (uri language : String) (line : Int) : Prop :=
  ∃ host, store.hosts.get? uri = some host ∧
    ∃ chunk ∈ host.extraction.chunksOf language, line = chunk.hostEnd + 1

/-- A range that starts in a chunk of a language and ends in one, or at the start of the line right
behind one. -/
structure Anchored (store : Store) (uri language : String) (range : Range) : Prop where
  start : store.languageAt? uri range.start.line = some language
  stop : store.languageAt? uri range.stop.line = some language ∨
    (range.stop.character = 0 ∧ store.FollowsChunk uri language range.stop.line)

theorem toHost_ok_document {place mapped : Position}
    (ok : store.toHost uri language place = .ok mapped) :
    ∃ host document, store.hosts.get? uri = some host ∧
      host.documents.get? language = some document ∧ document.toHost place = .ok mapped := by
  unfold toHost at ok
  split at ok
  · rename_i document held
    obtain ⟨host, tracked, found⟩ := Option.bind_eq_some_iff.mp held
    exact ⟨host, document, tracked, found, ok⟩
  · contradiction

theorem toSynthetic_ok_document {place mapped : Position}
    (ok : store.toSynthetic uri language place = .ok mapped) :
    ∃ host document, store.hosts.get? uri = some host ∧
      host.documents.get? language = some document ∧ document.toSynthetic place = .ok mapped := by
  unfold toSynthetic at ok
  split at ok
  · rename_i document held
    obtain ⟨host, tracked, found⟩ := Option.bind_eq_some_iff.mp held
    exact ⟨host, document, tracked, found, ok⟩
  · contradiction

end Store

namespace Document

variable {document : Document}

theorem toHost_character {place found : Position} (ok : document.toHost place = .ok found) :
    found.character = place.character := by
  unfold toHost at ok
  split at ok
  · cases ok
    rfl
  · contradiction

theorem toHost_monotone (mapped : document.Mapped) {place other found foundOther : Position}
    (ok : document.toHost place = .ok found) (okOther : document.toHost other = .ok foundOther)
    (ordered : place.line ≤ other.line) : found.line ≤ foundOther.line := by
  rcases Int.lt_or_eq_of_le ordered with less | same
  · have := toHost_increasing mapped ok okOther less
    omega
  · unfold toHost at ok okOther
    rw [same] at ok
    split at ok
    · rename_i chunk held
      rw [held] at okOther
      cases ok
      cases okOther
      exact Int.le_refl _
    · contradiction

/-- A line that is not mapped and comes right after one that is comes right after a chunk. -/
theorem toHost_last (mapped : document.Mapped) {place before : Position} {fault : Fault}
    (failed : document.toHost place = .error fault)
    (ok : document.toHost ⟨place.line - 1, 0⟩ = .ok before) :
    ∃ chunk ∈ document.chunks, before.line = chunk.hostEnd := by
  obtain ⟨chunk, member, inside, rfl⟩ := (toHost_eq_ok mapped).mp ok
  refine ⟨chunk, member, ?_⟩
  have outside : ¬ (chunk.syntheticStart ≤ place.line ∧ place.line ≤ chunk.syntheticEnd) := by
    intro held
    have found := (toHost_eq_ok mapped).mpr ⟨chunk, member, held, rfl⟩
    rw [failed] at found
    contradiction
  simp only [Chunk.syntheticEnd, Chunk.lineCount] at inside outside ⊢
  omega

end Document

namespace Store

variable {store settings : Store} {uri language : String} {host : Host} {document : Document}

theorem languageAt?_of_toHost (grounded : host.Grounded settings uri)
    (tracked : store.hosts.get? uri = some host)
    (found : host.documents.get? language = some document) {place mapped : Position}
    (ok : document.toHost place = .ok mapped) :
    store.languageAt? uri mapped.line = some language := by
  have mappedDocument := grounded.mapping.mapped language document found
  obtain ⟨chunk, member, inside, rfl⟩ := (Document.toHost_eq_ok mappedDocument).mp ok
  obtain ⟨own, inHost, sameStart, sameEnd⟩ := grounded.inStep.chunk found member
  rw [Store.languageAt?, tracked, Option.bind_some, grounded.mapping.current.languageAt?_eq_some]
  refine ⟨own, inHost, ?_⟩
  simp only [Chunk.syntheticEnd, Chunk.lineCount] at inside
  simp only
  omega

/-- What a mapped range has of the range it comes from. -/
structure Carried (range mapped : Range) : Prop where
  startCharacter : mapped.start.character = range.start.character
  stopCharacter : mapped.stop.character = range.stop.character
  ordered : range.start.before range.stop = true → mapped.start.before mapped.stop = true

theorem mapRange_eq_ok {range mapped : Range} (ok : store.mapRange uri language range = .ok mapped) :
    store.toHost uri language range.start = .ok mapped.start ∧
      (store.toHost uri language range.stop = .ok mapped.stop ∨
        (range.stop.character = 0 ∧ range.start.line < range.stop.line ∧
          (∃ fault, store.toHost uri language range.stop = .error fault) ∧
          ∃ last, store.toHost uri language ⟨range.stop.line - 1, 0⟩ = .ok last ∧
            mapped.stop = ⟨last.line + 1, 0⟩)) := by
  unfold mapRange mapPosition at ok
  split at ok
  · contradiction
  · rename_i start startOk
    split at ok
    · rename_i stop stopOk
      cases ok
      exact ⟨startOk, Or.inl stopOk⟩
    · rename_i fault failed
      split at ok
      · contradiction
      · rename_i exclusive
        cases lastOk : store.toHost uri language ⟨range.stop.line - 1, 0⟩ with
        | error reason => simp [lastOk, Except.map] at ok
        | ok last =>
          rw [lastOk] at ok
          cases ok
          exact ⟨startOk, Or.inr ⟨by omega, by omega, ⟨fault, failed⟩, last, rfl, rfl⟩⟩

theorem mapRange_anchored
    (grounded : ∀ host, store.hosts.get? uri = some host → host.Grounded settings uri)
    {range mapped : Range} (ok : store.mapRange uri language range = .ok mapped) :
    store.Anchored uri language mapped ∧ Carried range mapped := by
  obtain ⟨startOk, ends⟩ := mapRange_eq_ok ok
  obtain ⟨host, document, tracked, found, startHere⟩ := toHost_ok_document startOk
  have own := grounded host tracked
  have mappedDocument := own.mapping.mapped language document found
  have here : ∀ place, store.toHost uri language place = document.toHost place := by
    intro place
    simp [toHost, get?, tracked, found]
  have start := languageAt?_of_toHost own tracked found startHere
  have startCharacter := Document.toHost_character startHere
  simp only [here] at ends
  rcases ends with stopHere | ⟨zero, below, ⟨fault, failed⟩, last, lastHere, stop⟩
  · have stopCharacter := Document.toHost_character stopHere
    refine ⟨⟨start, Or.inl (languageAt?_of_toHost own tracked found stopHere)⟩,
      startCharacter, stopCharacter, ?_⟩
    intro ordered
    rw [Position.before_iff] at ordered ⊢
    rcases ordered with less | ⟨same, columns⟩
    · exact Or.inl (Document.toHost_increasing mappedDocument startHere stopHere less)
    · have up := Document.toHost_monotone mappedDocument startHere stopHere (by omega)
      have down := Document.toHost_monotone mappedDocument stopHere startHere (by omega)
      omega
  · obtain ⟨chunk, member, atEnd⟩ := Document.toHost_last mappedDocument failed lastHere
    obtain ⟨hostChunk, inHost, _, sameEnd⟩ := own.inStep.chunk found member
    refine ⟨⟨start, Or.inr ⟨by rw [stop], host, tracked, hostChunk, inHost, ?_⟩⟩,
      startCharacter, by rw [stop, zero], ?_⟩
    · rw [stop, sameEnd, ← atEnd]
    · intro _
      have up := Document.toHost_monotone mappedDocument startHere lastHere (by simp only; omega)
      rw [Position.before_iff, stop]
      simp only
      omega

end Store

end LanguageBridge
