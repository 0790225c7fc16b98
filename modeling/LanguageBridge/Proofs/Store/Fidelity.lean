import LanguageBridge.Proofs.Store.LineMapping

namespace LanguageBridge

/-! What a synthetic document says is what the host says: line by line in the chunks, and nothing
outside of them. -/

namespace Host

variable {settings : Store} {padding : Padding} {host : Host}

theorem Current.splitLines_layoutOf (current : host.Current settings) (padding : Padding)
    (language : String) :
    Text.splitLines (host.layoutOf padding language).text =
      (host.layoutOf padding language).lines ++ [""] := by
  refine Layout.splitLines_text (Layout.below_unbroken 0 none (current.enclosed language) ?_)
  rw [current.lines]
  exact Text.splitLines_unbroken host.text

theorem exists_place (padding : Padding) {language : String} {chunk : Chunk}
    (member : chunk ∈ host.extraction.chunksOf language) {line : Nat}
    (lower : chunk.hostStart ≤ line) (upper : line ≤ chunk.hostEnd) :
    ∃ placed ∈ (host.layoutOf padding language).chunks,
      (placed.hostStart ≤ line ∧ line ≤ placed.hostEnd) ∧
      ∃ place : Nat, (place : Int) = placed.syntheticStart + (line - placed.hostStart) := by
  obtain ⟨placed, placedMember, same⟩ := Layout.exists_placed 0 none padding host.lines member
  obtain ⟨first, last⟩ := Chunk.host_of_unplaced same
  have top := Layout.below_after 0 none _ placed placedMember
  have inside : placed.hostStart ≤ line ∧ line ≤ placed.hostEnd := by omega
  exact ⟨placed, placedMember, inside, _, Int.toNat_of_nonneg (by omega)⟩

/-- The lines of a chunk stand in the document as they stand in the host. -/
theorem Current.layoutOf_line (current : host.Current settings) {language : String} {laid : Chunk}
    (member : laid ∈ (host.layoutOf padding language).chunks) {line place : Nat}
    (inside : laid.hostStart ≤ line ∧ line ≤ laid.hostEnd)
    (placed : (place : Int) = laid.syntheticStart + (line - laid.hostStart)) :
    ∃ content, (host.layoutOf padding language).lines[place]? = some content ∧
      host.lines[line]? = some content := by
  have enclosed := current.enclosed language
  have within := Layout.below_within 0 none enclosed laid member
  simp only [Chunk.syntheticEnd, Chunk.lineCount] at within
  have bound : place < (host.layoutOf padding language).lines.length := by
    simp only [layoutOf, Layout.ofChunks]
    omega
  have found := List.getElem?_eq_getElem bound
  refine ⟨_, found, ?_⟩
  have laidOut := current.layoutOf_laid padding language
  rcases Layout.below_line 0 none enclosed found with ⟨other, otherMember, held, content⟩ | blank
  · -- only one chunk can hold the line
    simp only [Chunk.containsSynthetic_iff, Chunk.syntheticEnd, Chunk.lineCount] at held
    have same : laid = other := by
      rcases laidOut.order member otherMember with same | before | behind
      · exact same
      · simp only [Chunk.syntheticEnd, Chunk.lineCount] at before
        omega
      · simp only [Chunk.syntheticEnd, Chunk.lineCount] at behind
        omega
    subst same
    rw [← content]
    congr 1
    omega
  · refine absurd ?_ (blank.1 laid member)
    simp only [Chunk.containsSynthetic_iff, Chunk.syntheticEnd, Chunk.lineCount]
    omega

/-- A line of the document outside of all chunks is blank, the one behind the last line too. -/
theorem Current.layoutOf_blank (current : host.Current settings) {language : String} {place : Nat}
    {content : String}
    (found : (Text.splitLines (host.layoutOf padding language).text)[place]? = some content)
    (outside : ∀ chunk ∈ (host.layoutOf padding language).chunks,
      ¬ (chunk.syntheticStart ≤ place ∧ place ≤ chunk.syntheticEnd)) :
    content = "" := by
  rw [current.splitLines_layoutOf, List.getElem?_append] at found
  split at found
  · rcases Layout.below_line 0 none (current.enclosed language) found with
      ⟨laid, member, held, _⟩ | blank
    · rw [Chunk.containsSynthetic_iff] at held
      exact absurd (by simpa using held) (outside laid member)
    · exact blank.2
  · exact List.mem_singleton.mp (List.mem_of_getElem? found)

theorem Current.layoutOf_lineCount (current : host.Current settings) {language : String}
    {document : Document} (chunks : document.chunks = (host.layoutOf padding language).chunks) :
    document.lineCount = (host.layoutOf padding language).lines.length := by
  have bottom := Layout.below_end 0 none (current.enclosed language) padding
  rw [Document.lineCount, chunks]
  simp only [layoutOf, Layout.ofChunks]
  split
  · rename_i last
    rw [last, Option.map_none, Option.getD_none] at bottom
    omega
  · rename_i last
    rw [last, Option.map_some, Option.getD_some] at bottom
    omega

end Host

namespace Store

/-- An opened host is told truly. Every line of a chunk stands in the document where it is mapped
to, all else in the document is blank, it ends in one empty line below its last chunk, and under
compact padding there is one line between neighbouring chunks. -/
theorem openHost_documents_tell_host (store : Store) (uri text : String)
    (languageId : Option String) :
    let opened := store.openHost uri text languageId
    let extraction :=
      Extraction.ofText (store.rules.getD (Rule.forLanguageId languageId)) store.names text
    opened.languages uri = extraction.languages ∧
    ∀ language ∈ extraction.languages,
      ∃ document, opened.get? uri language = some document ∧
        (∀ chunk ∈ extraction.chunksOf language, ∀ line : Nat,
          chunk.hostStart ≤ line → line ≤ chunk.hostEnd →
            ∀ column, ∃ place : Nat,
              opened.toSynthetic uri language ⟨line, column⟩ = .ok ⟨place, column⟩ ∧
              ∃ content, (Text.splitLines document.text)[place]? = some content ∧
                (Text.splitLines text)[line]? = some content) ∧
        (∀ (place : Nat) (content : String),
          (Text.splitLines document.text)[place]? = some content →
            (∀ chunk ∈ document.chunks,
              ¬ (chunk.syntheticStart ≤ place ∧ place ≤ chunk.syntheticEnd)) →
            content = "") ∧
        (((Text.splitLines document.text).length : Int) = document.lineCount + 1 ∧
          (Text.splitLines document.text).getLast? = some "") ∧
        (store.padding = .compact → ∀ (i : Nat) (chunk : Chunk),
          document.chunks[i]? = some chunk →
            chunk.syntheticStart = Layout.spread (document.chunks.take i)) := by
  intro opened extraction
  have current := store.openedHost_current uri text languageId
  have laid := store.openedHost_laid uri text languageId
  have tracked : opened.hosts.get? uri = some (store.openedHost uri text languageId) := by
    simp only [opened, openHost, Table.get?_put, if_pos]
    rfl
  have sameText : (store.openedHost uri text languageId).text = text := Host.rebuildAll_text _
  have sameExtraction : (store.openedHost uri text languageId).extraction = extraction :=
    Host.rebuildAll_extraction _
  refine ⟨by simp [languages, tracked, sameExtraction], ?_⟩
  intro language known
  obtain ⟨document, found⟩ := laid.covered language (sameExtraction ▸ known)
  have there : opened.get? uri language = some document := by simp [get?, tracked, found]
  obtain ⟨documentText, documentChunks⟩ := laid.content language document found
  have mapped := (openedHost_mapping store uri text languageId).mapped language document found
  have splits := current.splitLines_layoutOf store.padding language
  rw [← documentText] at splits
  refine ⟨document, there, ?_, ?_, ⟨?_, ?_⟩, ?_⟩
  · intro chunk member line lower upper column
    rw [← sameExtraction] at member
    obtain ⟨placed, placedMember, inside, place, placeEq⟩ :=
      Host.exists_place store.padding member lower upper
    refine ⟨place, ?_, ?_⟩
    · rw [toSynthetic, there]
      exact (Document.toSynthetic_eq_ok mapped).mpr
        ⟨placed, documentChunks ▸ placedMember, inside, by rw [placeEq]⟩
    · obtain ⟨content, inDocument, inHost⟩ :=
        current.layoutOf_line placedMember inside placeEq
      refine ⟨content, ?_, ?_⟩
      · rw [splits, List.getElem?_append_left (List.getElem?_eq_some_iff.mp inDocument).1]
        exact inDocument
      · rw [current.lines, sameText] at inHost
        exact inHost
  · intro place content line outside
    rw [documentChunks] at outside
    rw [documentText] at line
    exact current.layoutOf_blank line outside
  · rw [splits, current.layoutOf_lineCount documentChunks]
    simp
  · rw [splits, List.getLast?_concat]
  · intro compact i chunk at_i
    rw [documentChunks] at at_i ⊢
    rw [compact] at at_i ⊢
    have place := Layout.below_compact 0 none (current.enclosed language) at_i
    simpa [Host.layoutOf, Layout.ofChunks] using place

/-- A line of the second of two chunks. -/
theorem openHost_documents_tell_second_chunk :
    let opened := (fresh .compact .standard none).openHost "h"
      "```python\na\n```\n```python\nb\n```" none
    "python" ∈ opened.languages "h" ∧
    ∃ document, opened.get? "h" "python" = some document ∧
      ∃ place : Nat, opened.toSynthetic "h" "python" ⟨4, 9⟩ = .ok ⟨place, 9⟩ ∧
        (Text.splitLines document.text)[place]? = some "b" := by
  intro opened
  have extracted : Extraction.ofText
      ((fresh .compact .standard none).rules.getD (Rule.forLanguageId none))
      (fresh .compact .standard none).names "```python\na\n```\n```python\nb\n```" =
        ⟨[⟨"python", 1, 1, 0⟩, ⟨"python", 4, 4, 0⟩], []⟩ := by cbv
  have told := openHost_documents_tell_host (fresh .compact .standard none) "h"
    "```python\na\n```\n```python\nb\n```" none
  simp only [extracted] at told
  obtain ⟨languages, documents⟩ := told
  refine ⟨languages ▸ by decide, ?_⟩
  obtain ⟨document, there, lines, _⟩ := documents "python" (by decide)
  obtain ⟨place, mapped, content, inDocument, inHost⟩ :=
    lines ⟨"python", 4, 4, 0⟩ (by decide) 4 (by decide) (by decide) 9
  have line : (Text.splitLines "```python\na\n```\n```python\nb\n```")[4]? = some "b" := by cbv
  rw [line] at inHost
  cases inHost
  exact ⟨document, there, place, mapped, inDocument⟩

end Store

end LanguageBridge
