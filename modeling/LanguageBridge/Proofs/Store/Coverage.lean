import LanguageBridge.Proofs.Store.Anchoring

namespace LanguageBridge

/-! The chunks of a host and the chunks of its documents. A line that a host has in a chunk of some
language is found again in the document of that language, whatever ranges the updates were given. -/

namespace Host

variable {padding : Padding} {host : Host} {uri language : String}

/-- What holds of the chunks of every layout stays true of the chunks of the documents. -/
theorem chunks_rebuildAll {holds : Chunk → Prop}
    (laid : ∀ language, ∀ chunk ∈ (host.layoutOf padding language).chunks, holds chunk)
    (before : ∀ language document, host.documents.get? language = some document →
      ∀ chunk ∈ document.chunks, holds chunk) (languages : List String) :
    ∀ language document, (host.rebuildAll padding uri languages).documents.get? language = some document →
      ∀ chunk ∈ document.chunks, holds chunk := by
  intro language document found
  by_cases member : language ∈ languages
  · obtain ⟨rebuilt, there, _, sameChunks⟩ := rebuildAll_laid host padding uri member
    cases there.symm.trans found
    rw [sameChunks]
    exact laid language
  · rw [rebuildAll_other member] at found
    exact before language document found

theorem InStep.placed {document : Document} (inStep : host.InStep)
    (found : host.documents.get? language = some document) {own : Chunk}
    (member : own ∈ host.extraction.chunksOf language) :
    ∃ chunk ∈ document.chunks, chunk.hostStart = own.hostStart ∧ chunk.hostEnd = own.hostEnd := by
  have mapped := List.mem_map_of_mem (f := Chunk.unplaced) member
  rw [← inStep language document found] at mapped
  obtain ⟨chunk, inDocument, same⟩ := List.mem_map.mp mapped
  exact ⟨chunk, inDocument, Chunk.host_of_unplaced same⟩

end Host

namespace Store

variable {store settings : Store} {allowed : Store → StoreStep → Prop} {history : List StoreStep}
  {uri language : String} {host : Host}

theorem reached_covered (reached : Reached apply allowed settings history store)
    (empty : settings.hosts = .empty) (found : store.hosts.get? uri = some host) :
    host.Covered := by
  refine reached_hosts reached empty (fun _ host => host.Covered) ?_ ?_ ?_ found
  · intro store _ uri text languageId
    refine Host.covered_rebuildAll fun language known left => ?_
    exact absurd known left
  · intro store _ uri old text changed _ _ covered
    refine Host.covered_rebuildAll fun language known left => ?_
    exact covered language (known_before_of_not_stale left known)
  · intro store _ uri old language covered
    change (old.rebuildAll store.padding uri [language]).Covered
    exact Host.covered_rebuildAll fun other known _ => covered other known

/-- Whatever holds of the chunks of every layout holds of the chunks of every document. -/
theorem reached_chunks (reached : Reached apply allowed settings history store)
    (empty : settings.hosts = .empty) {holds : Chunk → Prop}
    (laid : ∀ host : Host, host.Current settings →
      ∀ language, ∀ chunk ∈ (host.layoutOf settings.padding language).chunks, holds chunk)
    {document : Document} (found : store.get? uri language = some document) :
    ∀ chunk ∈ document.chunks, holds chunk := by
  obtain ⟨host, tracked, held⟩ := Option.bind_eq_some_iff.mp found
  -- the layout of a language is that of the present text, so the text must stay current as well
  refine (reached_hosts reached empty (fun _ host => host.Current settings ∧
    ∀ language document, host.documents.get? language = some document →
      ∀ chunk ∈ document.chunks, holds chunk) ?_ ?_ ?_ tracked).2 language document held
  · intro store same uri text languageId
    refine ⟨(store.openedHost_current uri text languageId).transfer same, ?_⟩
    rw [openedHost, same.padding]
    refine Host.chunks_rebuildAll (laid _ (Host.Current.transfer same ⟨rfl, rfl⟩)) ?_ _
    intro language document found
    cases found
  · rintro store same uri old text changed - - ⟨-, before⟩
    have current := (retexted_current store old text).transfer same
    rw [updatedHost, same.padding]
    exact ⟨current.rebuildAll _, Host.chunks_rebuildAll (laid _ current) before _⟩
  · rintro store same uri old language ⟨current, before⟩
    rw [same.padding]
    change Host.Current settings (old.rebuildAll settings.padding uri [language]) ∧ _
    exact ⟨current.rebuildAll _, Host.chunks_rebuildAll (laid _ current) before [language]⟩

/-- A host line that lies in a chunk. -/
def InChunk (store : Store) (uri : String) (line : Int) : Prop :=
  ∃ host, store.hosts.get? uri = some host ∧
    ∃ chunk ∈ host.extraction.chunks, chunk.containsHost line = true

section Reached

variable (reached : Reached apply allowed settings history store) (empty : settings.hosts = .empty)
include reached empty

theorem reached_languageAt? {line : Int} :
    store.languageAt? uri line = some language ↔ ∃ host, store.hosts.get? uri = some host ∧
      ∃ chunk ∈ host.extraction.chunksOf language, chunk.containsHost line = true := by
  simp only [languageAt?, Option.bind_eq_some_iff, Chunk.containsHost_iff]
  constructor
  · rintro ⟨host, tracked, here⟩
    have current := (reached_mapping reached empty tracked).current
    exact ⟨host, tracked, current.languageAt?_eq_some.mp here⟩
  · rintro ⟨host, tracked, here⟩
    have current := (reached_mapping reached empty tracked).current
    exact ⟨host, tracked, current.languageAt?_eq_some.mpr here⟩

theorem reached_languageAt?_eq_none {line : Int} :
    store.languageAt? uri line = none ↔ ¬ store.InChunk uri line := by
  rw [← not_iff_not, not_not, ← ne_eq, Option.ne_none_iff_exists']
  simp only [reached_languageAt? reached empty, Extraction.mem_chunksOf]
  constructor
  · rintro ⟨language, host, tracked, chunk, ⟨member, _⟩, inside⟩
    exact ⟨host, tracked, chunk, member, inside⟩
  · rintro ⟨host, tracked, chunk, member, inside⟩
    exact ⟨chunk.language, host, tracked, chunk, ⟨member, rfl⟩, inside⟩

theorem languageAt?_mem_languages {line : Int} (here : store.languageAt? uri line = some language) :
    language ∈ store.languages uri := by
  obtain ⟨host, tracked, chunk, member, _⟩ := (reached_languageAt? reached empty).mp here
  obtain ⟨inHost, same⟩ := Extraction.mem_chunksOf.mp member
  simp only [languages, tracked, Option.map_some, Option.getD_some]
  exact Extraction.mem_languages.mpr ⟨chunk, inHost, same⟩

theorem exists_document (known : language ∈ store.languages uri) :
    ∃ document, store.get? uri language = some document ∧ document.chunks ≠ [] := by
  cases tracked : store.hosts.get? uri with
  | none => simp [languages, tracked] at known
  | some host =>
    simp only [languages, tracked, Option.map_some, Option.getD_some] at known
    obtain ⟨document, found⟩ := reached_covered reached empty tracked language known
    obtain ⟨own, inHost, isOwn⟩ := Extraction.mem_languages.mp known
    obtain ⟨chunk, member, _⟩ := (reached_inStep reached empty tracked).placed found
      (Extraction.mem_chunksOf.mpr ⟨inHost, isOwn⟩)
    refine ⟨document, ?_, List.ne_nil_of_mem member⟩
    simp only [get?, tracked, Option.bind_some, found]

/-- A place in a chunk has a counterpart in the document of its language, which leads back to it. -/
theorem exists_toSynthetic {place : Position}
    (here : store.languageAt? uri place.line = some language) :
    ∃ found, store.toSynthetic uri language place = .ok found ∧
      store.toHost uri language found = .ok place := by
  obtain ⟨host, tracked, own, inHost, inside⟩ := (reached_languageAt? reached empty).mp here
  obtain ⟨member, isOwn⟩ := Extraction.mem_chunksOf.mp inHost
  obtain ⟨document, held⟩ := reached_covered reached empty tracked language
    (Extraction.mem_languages.mpr ⟨own, member, isOwn⟩)
  obtain ⟨chunk, inDocument, sameStart, sameEnd⟩ :=
    (reached_inStep reached empty tracked).placed held inHost
  have mapped := (reached_mapping reached empty tracked).mapped language document held
  rw [Chunk.containsHost_iff, ← sameStart, ← sameEnd] at inside
  obtain ⟨found, ok⟩ : ∃ found, document.toSynthetic place = .ok found :=
    ⟨_, (Document.toSynthetic_eq_ok mapped).mpr ⟨chunk, inDocument, inside, rfl⟩⟩
  refine ⟨found, ?_, ?_⟩
  · simp only [toSynthetic, get?, tracked, Option.bind_some, held]
    exact ok
  · simp only [toHost, get?, tracked, Option.bind_some, held]
    exact Document.toHost_of_toSynthetic mapped ok

end Reached

end Store

end LanguageBridge
