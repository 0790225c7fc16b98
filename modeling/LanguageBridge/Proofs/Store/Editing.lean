import LanguageBridge.Proofs.Edits
import LanguageBridge.Proofs.Store.Refinement

namespace LanguageBridge

/-! Updates that are told which lines an editor has changed, against updates that look at everything.
A language that is passed by keeps its document, and that is right as long as the lines of its chunks
are the ones from before. -/

/-- The lines that a chunk holds are the same in two texts. -/
def Chunk.SameLines (chunk : Chunk) (text other : String) : Prop :=
  ∀ index : Nat, chunk.hostStart ≤ index → index ≤ chunk.hostEnd →
    (Text.splitLines text)[index]? = (Text.splitLines other)[index]?

namespace Layout

variable {padding : Padding}

theorem below_bodies {hostLines others : List String} (height : Nat) (previousEnd : Option Int)
    {chunks : List Chunk}
    (sameLength : ∀ chunk ∈ chunks,
      (linesBetween hostLines chunk.hostStart chunk.hostEnd).length =
        (linesBetween others chunk.hostStart chunk.hostEnd).length)
    (same : (below padding hostLines height previousEnd chunks).lines =
      (below padding others height previousEnd chunks).lines) :
    ∀ chunk ∈ chunks, linesBetween hostLines chunk.hostStart chunk.hostEnd =
      linesBetween others chunk.hostStart chunk.hostEnd := by
  induction chunks generalizing height previousEnd with
  | nil => simp
  | cons chunk rest ih =>
    have here := sameLength chunk List.mem_cons_self
    simp only [below, List.append_assoc, ← here] at same
    obtain ⟨body, later⟩ := List.append_inj (List.append_cancel_left same) here
    intro other member
    rcases List.mem_cons.mp member with rfl | behind
    · exact body
    · exact ih _ _ (fun chunk member => sameLength chunk (List.mem_cons_of_mem _ member)) later
        other behind

theorem ofChunks_text_eq_iff {text other : String} {chunks : List Chunk}
    (enclosed : ∀ chunk ∈ chunks, chunk.Enclosed (Text.splitLines text).length)
    (enclosedToo : ∀ chunk ∈ chunks, chunk.Enclosed (Text.splitLines other).length) :
    (ofChunks padding (Text.splitLines text) chunks).text =
        (ofChunks padding (Text.splitLines other) chunks).text ↔
      ∀ chunk ∈ chunks, chunk.SameLines text other := by
  constructor
  · intro same chunk member
    unfold ofChunks at same
    have lines := congrArg Text.splitLines same
    rw [splitLines_text (below_unbroken 0 none enclosed (Text.splitLines_unbroken text)),
      splitLines_text (below_unbroken 0 none enclosedToo (Text.splitLines_unbroken other))] at lines
    have bodies := below_bodies 0 none ?_ (List.append_cancel_right lines) chunk member
    · intro index lower upper
      have place : chunk.hostStart.toNat + (index - chunk.hostStart.toNat) = index := by
        have := (enclosed chunk member).positive
        omega
      have inside : ((index - chunk.hostStart.toNat : Nat) : Int) < chunk.lineCount := by
        have := (enclosed chunk member).positive
        unfold Chunk.lineCount
        omega
      rw [← place, ← linesBetween_getElem? (enclosed chunk member) inside, bodies,
        linesBetween_getElem? (enclosedToo chunk member) inside]
    · intro chunk member
      have first := linesBetween_length (enclosed chunk member)
      have second := linesBetween_length (enclosedToo chunk member)
      omega
  · intro same
    refine congrArg Layout.text (below_congr 0 none chunks fun chunk member => ?_)
    exact linesBetween_congr (enclosed chunk member) (enclosedToo chunk member) (same chunk member)

end Layout

namespace Store

variable {store : Store} {uri language new : String} {host : Host} {changed : Option LineRange}

/-- The text of a document, if there is one. -/
def documentText? (store : Store) (uri language : String) : Option String :=
  (store.get? uri language).map Document.text

theorem update_get? (tracked : store.hosts.get? uri = some host) (new : String)
    (changed : Option LineRange) (language : String) :
    (store.update uri new changed).get? uri language =
      (store.updatedHost uri host new changed).documents.get? language := by
  simp only [update, tracked, get?, Table.get?_put, if_true, Option.bind_some]
  rfl

/-- A language that the host has, had, or has a document of. -/
def Known (store : Store) (host : Host) (new language : String) : Prop :=
  language ∈ host.extraction.languages ∨
    language ∈ (store.extract new host.languageId).languages ∨ language ∈ host.documents.keys

theorem mem_staleLanguages :
    language ∈ staleLanguages changed host (store.extract new host.languageId) ↔
      store.Known host new language ∧
        untouched changed (host.extraction.chunksOf language)
          ((store.extract new host.languageId).chunksOf language) = false := by
  simp [staleLanguages, Known, List.mem_filter, List.mem_eraseDups]

theorem documentText?_stale (tracked : store.hosts.get? uri = some host)
    (stale : language ∈ staleLanguages changed host (store.extract new host.languageId)) :
    (store.update uri new changed).documentText? uri language =
      some ((store.retexted host new).layoutOf store.padding language).text := by
  obtain ⟨document, found, sameText, _⟩ :=
    (store.retexted host new).rebuildAll_laid store.padding uri stale
  rw [documentText?, update_get? tracked, updatedHost, found, Option.map_some, sameText]

theorem documentText?_left (tracked : store.hosts.get? uri = some host)
    (left : language ∉ staleLanguages changed host (store.extract new host.languageId)) :
    (store.update uri new changed).documentText? uri language =
      (host.documents.get? language).map Document.text := by
  rw [documentText?, update_get? tracked, updatedHost, Host.rebuildAll_other left]
  rfl

theorem documentText?_full (tracked : store.hosts.get? uri = some host)
    (known : store.Known host new language) :
    (store.update uri new none).documentText? uri language =
      some ((store.retexted host new).layoutOf store.padding language).text :=
  documentText?_stale tracked (mem_staleLanguages.mpr ⟨known, rfl⟩)

theorem known_of_chunk {chunk : Chunk}
    (member : chunk ∈ (store.extract new host.languageId).chunksOf language) :
    store.Known host new language := by
  obtain ⟨inChunks, same⟩ := Extraction.mem_chunksOf.mp member
  exact Or.inr (Or.inl (Extraction.mem_languages.mpr ⟨chunk, inChunks, same⟩))

/-- A language that is passed by has a document, if it is known at all, and the document is the one
from before. -/
theorem documentText?_passed (tracked : store.hosts.get? uri = some host)
    (laid : host.Laid store.padding) {range : LineRange} (known : store.Known host new language)
    (passed : untouched (some range) (host.extraction.chunksOf language)
      ((store.extract new host.languageId).chunksOf language) = true) :
    (store.update uri new (some range)).documentText? uri language =
      some (host.layoutOf store.padding language).text := by
  have left : language ∉ staleLanguages (some range) host (store.extract new host.languageId) := by
    rw [mem_staleLanguages, passed]
    simp
  have same := (untouched_some passed).1
  have has : ∃ document, host.documents.get? language = some document := by
    rcases known with before | now | held
    · exact laid.covered language before
    · apply laid.covered language
      by_contra absent
      rw [← Extraction.chunksOf_eq_nil, same, Extraction.chunksOf_eq_nil] at absent
      exact absent now
    · cases found : host.documents.get? language with
      | some document => exact ⟨document, rfl⟩
      | none => exact absurd held (Table.get?_eq_none_iff.mp found)
  obtain ⟨document, found⟩ := has
  rw [documentText?_left tracked left, found, Option.map_some, (laid.content _ _ found).1]

theorem layoutOf_text_eq_iff (current : host.Current store)
    (same : host.extraction.chunksOf language =
      (store.extract new host.languageId).chunksOf language) :
    (host.layoutOf store.padding language).text =
        ((store.retexted host new).layoutOf store.padding language).text ↔
      ∀ chunk ∈ (store.extract new host.languageId).chunksOf language,
        chunk.SameLines host.text new := by
  have enclosed := current.enclosed language
  have enclosedToo := (retexted_current store host new).enclosed language
  rw [current.lines, same] at enclosed
  rw [Host.layoutOf, Host.layoutOf, current.lines, same]
  exact Layout.ofChunks_text_eq_iff enclosed enclosedToo

/-- Being told the lines makes a difference for a language exactly if the language is passed by and
one of its chunks holds other lines than before. -/
theorem documentText?_eq_iff (tracked : store.hosts.get? uri = some host)
    (current : host.Current store) (laid : host.Laid store.padding) :
    (store.update uri new changed).documentText? uri language =
        (store.update uri new none).documentText? uri language ↔
      (untouched changed (host.extraction.chunksOf language)
          ((store.extract new host.languageId).chunksOf language) = true →
        ∀ chunk ∈ (store.extract new host.languageId).chunksOf language,
          chunk.SameLines host.text new) := by
  by_cases known : store.Known host new language
  · rw [documentText?_full tracked known]
    cases changed with
    | none =>
      rw [documentText?_full tracked known]
      simp [untouched]
    | some range =>
      cases passed : untouched (some range) (host.extraction.chunksOf language)
          ((store.extract new host.languageId).chunksOf language) with
      | false =>
        rw [documentText?_stale tracked (mem_staleLanguages.mpr ⟨known, passed⟩)]
        simp
      | true =>
        rw [documentText?_passed tracked laid known passed, Option.some.injEq,
          layoutOf_text_eq_iff current (untouched_some passed).1]
        simp
  · -- a language that nobody knows has no document, and no chunk
    have left : ∀ changed, language ∉
        staleLanguages changed host (store.extract new host.languageId) := by
      intro changed stale
      exact known (mem_staleLanguages.mp stale).1
    rw [documentText?_left tracked (left changed), documentText?_left tracked (left none)]
    constructor
    · intro _ _ chunk member
      exact absurd (known_of_chunk member) known
    · intro _
      rfl

/-! ### The lines that an editor reports -/

open ContentChange Text

variable {width : Char → Nat} {allowed : String → Prop} {changes : List ContentChange}
  {range : LineRange} {chunk : Chunk}

theorem sameLines_above (edited : Edited width allowed changes host.text new)
    (reported : changedLines? changes = some range) (above : chunk.hostEnd < range.first)
    (enclosed : chunk.Enclosed (splitLines host.text).length) :
    chunk.SameLines host.text new := by
  intro index lower upper
  have := enclosed.below
  exact edited.getElem?_above (changedLines?_within reported) (by omega) (by omega)

theorem sameLines_below
    (edited : Edited width
      (fun text => (splitLines host.text).length ≤ (splitLines text).length) changes host.text new)
    (level : (splitLines new).length = (splitLines host.text).length)
    (counted : ∀ change ∈ changes, change.Counted)
    (reported : changedLines? changes = some range) (below : range.last < chunk.hostStart) :
    chunk.SameLines host.text new := by
  intro index lower upper
  exact edited.getElem?_below level (changedLines?_within reported) counted (by omega)

/-- After an update that was told the lines an editor reports, a document has the text that an update
without them gives, unless its language was passed by and a chunk holds other lines than before. This
cannot be so for a language all of whose chunks end above the first change, nor for any language if
the text never gets shorter on the way and is as long in the end as it was. -/
theorem update_told_lines_agrees (tracked : store.hosts.get? uri = some host)
    (current : host.Current store) (laid : host.Laid store.padding)
    (edited : Edited width allowed changes host.text new)
    (counted : ∀ change ∈ changes, change.Counted) :
    let told := store.update uri new (changedLines? changes)
    let full := store.update uri new none
    let chunksOf := (store.extract new host.languageId).chunksOf
    (∀ language, told.documentText? uri language = full.documentText? uri language ↔
      (untouched (changedLines? changes) (host.extraction.chunksOf language)
          (chunksOf language) = true →
        ∀ chunk ∈ chunksOf language, chunk.SameLines host.text new)) ∧
    (∀ language,
      (∀ range, changedLines? changes = some range →
        ∀ chunk ∈ chunksOf language, chunk.hostEnd < range.first) →
      told.documentText? uri language = full.documentText? uri language) ∧
    (Edited width (fun text => (splitLines host.text).length ≤ (splitLines text).length)
        changes host.text new →
      (splitLines new).length = (splitLines host.text).length →
        ∀ language, told.documentText? uri language = full.documentText? uri language) := by
  intro told full chunksOf
  have criterion : ∀ language,
      told.documentText? uri language = full.documentText? uri language ↔
        (untouched (changedLines? changes) (host.extraction.chunksOf language)
            (chunksOf language) = true →
          ∀ chunk ∈ chunksOf language, chunk.SameLines host.text new) :=
    fun language => documentText?_eq_iff tracked current laid
  -- a language that is passed by has the chunks of the old text, and they lie apart from the lines
  have passed : ∀ language, untouched (changedLines? changes) (host.extraction.chunksOf language)
      (chunksOf language) = true → ∃ range, changedLines? changes = some range ∧
        ∀ chunk ∈ chunksOf language, chunk.Enclosed (splitLines host.text).length ∧
          (range.last < chunk.hostStart ∨ chunk.hostEnd < range.first) := by
    intro language isPassed
    cases reported : changedLines? changes with
    | none =>
      rw [reported] at isPassed
      contradiction
    | some range =>
      rw [reported] at isPassed
      obtain ⟨same, apart⟩ := untouched_some isPassed
      refine ⟨range, rfl, fun chunk member => ⟨?_, apart chunk member⟩⟩
      rw [← current.lines]
      exact current.enclosed language chunk (same ▸ member)
  refine ⟨criterion, ?_, ?_⟩
  · intro language above
    refine (criterion language).mpr fun isPassed chunk member => ?_
    obtain ⟨range, reported, apart⟩ := passed language isPassed
    exact sameLines_above edited reported (above range reported chunk member) (apart chunk member).1
  · intro never level language
    refine (criterion language).mpr fun isPassed chunk member => ?_
    obtain ⟨range, reported, apart⟩ := passed language isPassed
    obtain ⟨enclosed, below | above⟩ := apart chunk member
    · exact sameLines_below never level counted reported below
    · exact sameLines_above edited reported above enclosed

/-- A change inside of one line, which passes the other language by. -/
theorem update_told_lines_agrees_in_line :
    let store := (fresh .compact .standard none).openHost "h"
      "```python\nx = 1\n```\n```json\n1\n```" none
    let changes : List ContentChange := [.part ⟨⟨1, 4⟩, ⟨1, 5⟩⟩ "2"]
    let new := "```python\nx = 2\n```\n```json\n1\n```"
    changedLines? changes = some ⟨1, 1⟩ ∧
    (store.update "h" new (some ⟨1, 1⟩)).documentText? "h" "python" = some "x = 2\n" ∧
    ∀ language, (store.update "h" new (some ⟨1, 1⟩)).documentText? "h" language =
      (store.update "h" new none).documentText? "h" language := by
  intro store changes new
  let old := "```python\nx = 1\n```\n```json\n1\n```"
  have replaced : replace (fun _ => 1) ⟨⟨1, 4⟩, ⟨1, 5⟩⟩ "2" old = new := by cbv
  have level : (splitLines new).length = (splitLines old).length := by cbv
  have edited : Edited (fun _ => 1)
      (fun text => (splitLines old).length ≤ (splitLines text).length) changes old new := by
    refine .part ?_ ?_
    · rw [replaced, level]
    · rw [replaced]
      exact .done new
  have counted : ∀ change ∈ changes, change.Counted := by
    intro change member
    rw [List.mem_singleton.mp member]
    exact ⟨by decide, by decide⟩
  obtain ⟨host, tracked, text, current, laid⟩ : ∃ host, store.hosts.get? "h" = some host ∧
      host.text = old ∧ host.Current store ∧ host.Laid store.padding := by
    refine ⟨(fresh .compact .standard none).openedHost "h" old none, ?_, ?_,
      openedHost_current _ "h" old none, openedHost_laid _ "h" old none⟩
    · simp only [store, openHost, Table.get?_put, if_true]
      rfl
    · simp [openedHost, bareHost]
  rw [← text] at edited level
  have reported : changedLines? changes = some ⟨1, 1⟩ := by decide
  have agrees := (update_told_lines_agrees tracked current laid edited counted).2.2 edited level
  rw [reported] at agrees
  exact ⟨reported, by cbv, agrees⟩

/-- Lines that come in above can bring other lines under a chunk of the same place: here they close a
fence that was open, and what was text becomes a chunk. Changes can also cancel each other out. Here
lines above a chunk go away, a line of the chunk is changed where it stands then, and the lines above
come back; the change of the chunk is reported under a line that it does not have any more. -/
theorem update_told_lines_disagrees :
    (let store := (fresh .compact .standard none).openHost "h"
        "````\n```python\na\n```\n````\n```python\nb\n```" none
      let changes : List ContentChange := [.part ⟨⟨1, 0⟩, ⟨1, 0⟩⟩ "````\nx\nx\nx\n"]
      ∃ new, Edited (fun _ => 1) (fun _ => True) changes
          "````\n```python\na\n```\n````\n```python\nb\n```" new ∧
        (store.update "h" new (changedLines? changes)).documentText? "h" "python" = some "b\n" ∧
        (store.update "h" new none).documentText? "h" "python" = some "a\n") ∧
    (let store := (fresh .compact .standard none).openHost "h" "p\nq\n```python\na\n```" none
      let changes : List ContentChange :=
        [.part ⟨⟨0, 0⟩, ⟨2, 0⟩⟩ "", .part ⟨⟨1, 0⟩, ⟨1, 1⟩⟩ "b", .part ⟨⟨0, 0⟩, ⟨0, 0⟩⟩ "p\nq\n"]
      ∃ new, Edited (fun _ => 1) (fun _ => True) changes "p\nq\n```python\na\n```" new ∧
        (splitLines new).length = (splitLines "p\nq\n```python\na\n```").length ∧
        (store.update "h" new (changedLines? changes)).documentText? "h" "python" = some "a\n" ∧
        (store.update "h" new none).documentText? "h" "python" = some "b\n") := by
  refine ⟨⟨_, .part trivial (.done _), ?_, ?_⟩,
    ⟨_, .part trivial (.part trivial (.part trivial (.done _))), ?_, ?_, ?_⟩⟩ <;> cbv

end Store

end LanguageBridge
