import Mathlib
import LanguageBridge.Proofs.Store.Run

namespace LanguageBridge

/-! The documents of a store hold what laying out the present text anew would give, however the
text came about. Skipping languages that an edit did not touch is what makes this worth a proof. -/

namespace Host

/-- A host whose lines and chunks are those of its text. -/
structure Current (settings : Store) (host : Host) : Prop where
  lines : host.lines = Text.splitLines host.text
  extraction : host.extraction = settings.extract host.text host.languageId

/-- A host whose documents hold the layouts of its lines. -/
structure Laid (padding : Padding) (host : Host) : Prop where
  covered : ∀ language ∈ host.extraction.languages,
    ∃ document, host.documents.get? language = some document
  content : ∀ language document, host.documents.get? language = some document →
    document.text = (host.layoutOf padding language).text ∧
      document.chunks = (host.layoutOf padding language).chunks

variable {settings : Store} {padding : Padding} {host : Host} {uri : String}

theorem Current.enclosed (current : host.Current settings) (language : String) :
    ∀ chunk ∈ host.extraction.chunksOf language, chunk.Enclosed host.lines.length := by
  intro chunk member
  rw [current.lines]
  rw [current.extraction] at member
  exact Extraction.ofText_enclosed _ _ _ chunk (Extraction.mem_chunksOf.mp member).1

theorem Current.apart (current : host.Current settings) (language : String) :
    ChunksApart (host.extraction.chunksOf language) := by
  rw [current.extraction]
  exact Extraction.chunksOf_apart (Extraction.ofText_apart _ _ _) language

theorem Current.transfer {store : Store} (same : settings.SameSettings store)
    (current : host.Current store) : host.Current settings :=
  ⟨current.lines, current.extraction.trans (same.extract _ _)⟩

theorem Current.rebuildAll (current : host.Current settings) (languages : List String) :
    (host.rebuildAll padding uri languages).Current settings where
  lines := by simpa using current.lines
  extraction := by simpa using current.extraction

theorem rebuildAll_layoutOf (languages : List String) (language : String) :
    (host.rebuildAll padding uri languages).layoutOf padding language =
      host.layoutOf padding language := by
  simp [layoutOf]

def Covered (host : Host) : Prop :=
  ∀ language ∈ host.extraction.languages, ∃ document, host.documents.get? language = some document

theorem covered_rebuildAll {languages : List String}
    (left : ∀ language ∈ host.extraction.languages, language ∉ languages →
      ∃ document, host.documents.get? language = some document) :
    (host.rebuildAll padding uri languages).Covered := by
  intro language known
  rw [rebuildAll_extraction] at known
  by_cases member : language ∈ languages
  · obtain ⟨document, found, _⟩ := rebuildAll_laid _ _ _ member
    exact ⟨document, found⟩
  · rw [rebuildAll_other member]
    exact left language known member

/-- It is enough that the languages that were left out have no document, or one that holds its
layout already. -/
theorem laid_rebuildAll {languages : List String}
    (covered : ∀ language ∈ host.extraction.languages, language ∉ languages →
      ∃ document, host.documents.get? language = some document)
    (content : ∀ language document, language ∉ languages →
      host.documents.get? language = some document →
        document.text = (host.layoutOf padding language).text ∧
          document.chunks = (host.layoutOf padding language).chunks) :
    (host.rebuildAll padding uri languages).Laid padding where
  covered := covered_rebuildAll covered
  content := by
    intro language document found
    rw [rebuildAll_layoutOf]
    by_cases member : language ∈ languages
    · obtain ⟨rebuilt, there, same⟩ := rebuildAll_laid host padding uri member
      rw [there] at found
      cases found
      exact same
    · rw [rebuildAll_other member] at found
      exact content language document member found

end Host

namespace Store

/-- An update is given no range, or one outside of which no line has changed. -/
def Faithful (store : Store) : StoreStep → Prop
  | .update uri text (some range) =>
    ∀ old, store.text? uri = some old →
      ∀ index : Nat, (index : Int) < range.first ∨ range.last < index →
        (Text.splitLines old)[index]? = (Text.splitLines text)[index]?
  | _ => True

variable {store settings : Store} {uri text : String} {old : Host}

/-! ### One step -/

theorem openedHost_current (store : Store) (uri text : String) (languageId : Option String) :
    (store.openedHost uri text languageId).Current store :=
  Host.Current.rebuildAll ⟨rfl, rfl⟩ _

theorem openedHost_laid (store : Store) (uri text : String) (languageId : Option String) :
    (store.openedHost uri text languageId).Laid store.padding := by
  apply Host.laid_rebuildAll
  · intro language known left
    exact absurd known left
  · intro language document _ found
    cases found

theorem retexted_current (store : Store) (old : Host) (text : String) :
    (store.retexted old text).Current store :=
  ⟨rfl, rfl⟩

theorem untouched_some {range : LineRange} {before after : List Chunk}
    (passed : untouched (some range) before after = true) :
    before = after ∧
      ∀ chunk ∈ after, range.last < chunk.hostStart ∨ chunk.hostEnd < range.first := by
  simp only [untouched, Bool.and_eq_true, decide_eq_true_eq, Bool.not_eq_true',
    List.any_eq_false, Chunk.intersects] at passed
  refine ⟨passed.1, ?_⟩
  intro chunk member
  have apart := passed.2 chunk member
  omega

theorem untouched_layoutOf {changed : Option LineRange} {language : String}
    (faithful : ∀ range, changed = some range →
      ∀ index : Nat, (index : Int) < range.first ∨ range.last < index →
        (Text.splitLines old.text)[index]? = (Text.splitLines text)[index]?)
    (current : old.Current store)
    (passed : untouched changed (old.extraction.chunksOf language)
      ((store.extract text old.languageId).chunksOf language) = true) :
    old.layoutOf store.padding language =
      (store.retexted old text).layoutOf store.padding language := by
  cases changed with
  | none => contradiction
  | some range =>
    obtain ⟨same, apart⟩ := untouched_some passed
    have outside := faithful range rfl
    have enclosed := current.enclosed language
    have enclosedToo := (retexted_current store old text).enclosed language
    simp only [Host.layoutOf, retexted, current.lines] at enclosed enclosedToo ⊢
    rw [same] at enclosed ⊢
    refine Layout.below_congr 0 none _ fun chunk member => ?_
    refine linesBetween_congr (enclosed chunk member) (enclosedToo chunk member) ?_
    intro index lower upper
    have := apart chunk member
    exact outside index (by omega)

/-- A language that is known from before, from now or from a document is stale, or the edit passed
it by. -/
theorem untouched_of_not_stale {changed : Option LineRange} {extraction : Extraction}
    {language : String} (left : language ∉ staleLanguages changed old extraction)
    (known : language ∈ old.extraction.languages ∨ language ∈ extraction.languages ∨
      language ∈ old.documents.keys) :
    untouched changed (old.extraction.chunksOf language) (extraction.chunksOf language) = true := by
  cases passed : untouched changed (old.extraction.chunksOf language)
      (extraction.chunksOf language) with
  | true => rfl
  | false =>
    refine absurd ?_ left
    simp only [staleLanguages, List.mem_filter, List.mem_eraseDups, List.mem_append, or_assoc,
      passed]
    exact ⟨known, rfl⟩

/-- A language that was passed by has chunks, and had the same ones before. -/
theorem known_before_of_not_stale {changed : Option LineRange} {extraction : Extraction}
    {language : String} (left : language ∉ staleLanguages changed old extraction)
    (known : language ∈ extraction.languages) : language ∈ old.extraction.languages := by
  have passed := untouched_of_not_stale left (Or.inr (Or.inl known))
  cases changed with
  | none => contradiction
  | some range =>
    have same := (untouched_some passed).1
    rw [← Decidable.not_not (p := language ∈ old.extraction.languages),
      ← Extraction.chunksOf_eq_nil, same, Extraction.chunksOf_eq_nil, Decidable.not_not]
    exact known

theorem updatedHost_laid {changed : Option LineRange}
    (faithful : ∀ range, changed = some range →
      ∀ index : Nat, (index : Int) < range.first ∨ range.last < index →
        (Text.splitLines old.text)[index]? = (Text.splitLines text)[index]?)
    (current : old.Current store) (laid : old.Laid store.padding) :
    (store.updatedHost uri old text changed).Laid store.padding := by
  apply Host.laid_rebuildAll
  · intro language known left
    exact laid.covered language (known_before_of_not_stale left known)
  · intro language document left found
    have passed := untouched_of_not_stale left (Or.inr (Or.inr (Table.mem_keys_of_get? found)))
    rw [← untouched_layoutOf faithful current passed]
    exact laid.content language document found

/-! ### Whole runs -/

variable {allowed : Store → StoreStep → Prop} {history : List StoreStep} {host : Host}

theorem reached_current (reached : Reached apply allowed settings history store)
    (empty : settings.hosts = .empty) (found : store.hosts.get? uri = some host) :
    host.Current settings := by
  refine reached_hosts reached empty (fun _ host => host.Current settings) ?_ ?_ ?_ found
  · intro store same uri text languageId
    exact (store.openedHost_current uri text languageId).transfer same
  · intro store same uri old text changed _ _ _
    exact (Host.Current.rebuildAll (retexted_current store old text) _).transfer same
  · intro store _ uri old language current
    exact ⟨current.lines, current.extraction⟩

theorem reached_laid (reached : Reached apply Faithful settings history store)
    (empty : settings.hosts = .empty) (found : store.hosts.get? uri = some host) :
    host.Laid settings.padding := by
  have both : host.Current settings ∧ host.Laid settings.padding := by
    refine reached_hosts reached empty (fun _ host => host.Current settings ∧ host.Laid settings.padding)
      ?_ ?_ ?_ found
    · intro store same uri text languageId
      rw [← same.padding]
      exact ⟨(store.openedHost_current uri text languageId).transfer same,
        store.openedHost_laid uri text languageId⟩
    · intro store same uri old text changed permitted known ⟨current, laid⟩
      refine ⟨(Host.Current.rebuildAll (retexted_current store old text) _).transfer same, ?_⟩
      rw [← same.padding] at laid ⊢
      refine updatedHost_laid ?_ (current.transfer same.symm) laid
      rintro range rfl
      exact permitted old.text (by simp [text?, known])
    · intro store same uri old language ⟨current, laid⟩
      refine ⟨⟨current.lines, current.extraction⟩, ?_⟩
      rw [← same.padding] at laid ⊢
      change (old.rebuildAll store.padding uri [language]).Laid store.padding
      exact Host.laid_rebuildAll
        (fun known member _ => laid.covered known member)
        (fun known document _ => laid.content known document)
  exact both.2

/-- What a run leaves behind for a host is settled by the text and the language id that the host was
given last. Every language of that text has a document; every document holds the layout of its
language in that text, and is empty if the language has gone. -/
theorem documents_settled_by_recorded_text {padding : Padding} {names : LanguageNames}
    {rules : Option (List Rule)}
    (reached : Reached apply Faithful (fresh padding names rules) history store) (uri : String) :
    (recorded history uri = none → ∀ language, store.get? uri language = none) ∧
    ∀ text languageId, recorded history uri = some (text, languageId) →
      let extraction := Extraction.ofText (rules.getD (Rule.forLanguageId languageId)) names text
      store.text? uri = some text ∧
      (∀ language ∈ extraction.languages,
        ∃ document, store.get? uri language = some document) ∧
      ∀ language document, store.get? uri language = some document →
        let layout :=
          Layout.ofChunks padding (Text.splitLines text) (extraction.chunksOf language)
        document.text = layout.text ∧ document.chunks = layout.chunks ∧
          (language ∉ extraction.languages → document.text = "" ∧ document.chunks = []) := by
  have given := reached_recorded reached rfl uri
  constructor
  · intro absent language
    rw [absent, Option.map_eq_none_iff] at given
    simp [get?, given]
  · intro text languageId known extraction
    rw [known, Option.map_eq_some_iff] at given
    obtain ⟨host, found, same⟩ := given
    cases same
    have current := reached_current reached rfl found
    have laid := reached_laid reached rfl found
    have sameExtraction : host.extraction = extraction := current.extraction
    have documents : ∀ language, store.get? uri language = host.documents.get? language := by
      intro language
      simp [get?, found]
    refine ⟨by simp [text?, found], ?_, ?_⟩
    · intro language member
      rw [documents]
      exact laid.covered language (sameExtraction ▸ member)
    · intro language document there layout
      rw [documents] at there
      obtain ⟨sameText, sameChunks⟩ := laid.content language document there
      have sameLayout : host.layoutOf padding language = layout := by
        rw [Host.layoutOf, current.lines, sameExtraction]
      have inLayout : document.text = layout.text ∧ document.chunks = layout.chunks :=
        sameLayout ▸ ⟨sameText, sameChunks⟩
      refine ⟨inLayout.1, inLayout.2, ?_⟩
      intro gone
      have blank : layout = Layout.ofChunks padding (Text.splitLines host.text) [] :=
        congrArg _ (Extraction.chunksOf_eq_nil.mpr gone)
      rw [inLayout.1, inLayout.2, blank]
      exact ⟨rfl, rfl⟩

/-- An edit of one language that is passed on with its lines, after which the other document, which
the edit passed by, holds its layout too. -/
theorem documents_settled_after_edit :
    ∃ history store,
      recorded history "h" =
        some ("```python\nx = 2\n```\n```json\n1\n```", some "markdown") ∧
      Reached apply Faithful (fresh .compact .standard none) history store ∧
      ∃ python json, store.get? "h" "python" = some python ∧ python.text = "x = 2\n" ∧
        store.get? "h" "json" = some json ∧ json.text = "1\n" := by
  let opening : StoreStep :=
    .openHost "h" "```python\nx = 1\n```\n```json\n1\n```" (some "markdown")
  let edit : StoreStep := .update "h" "```python\nx = 2\n```\n```json\n1\n```" (some ⟨1, 1⟩)
  have known : recorded [edit, opening] "h" =
      some ("```python\nx = 2\n```\n```json\n1\n```", some "markdown") := by decide +kernel
  have reached : Reached apply Faithful (fresh .compact .standard none) [edit, opening]
      (((fresh .compact .standard none).apply opening).apply edit) := by
    refine .step (.step .start opening trivial) edit ?_
    intro old tracked index outside
    have opened : ((fresh .compact .standard none).apply opening).text? "h" =
        some "```python\nx = 1\n```\n```json\n1\n```" := by
      simp [opening, apply, openHost, text?, Table.get?_put]
    have sameText := Option.some.inj (tracked.symm.trans opened)
    have changed : Text.splitLines "```python\nx = 2\n```\n```json\n1\n```" =
        (Text.splitLines old).set 1 "x = 2" := by
      rw [sameText]
      cbv
    rw [changed, List.getElem?_set_ne (by simp only at outside; omega)]
  obtain ⟨_, covered, content⟩ :=
    (documents_settled_by_recorded_text reached "h").2 _ _ known
  have languages : (Extraction.ofText (Rule.forLanguageId (some "markdown")) .standard
      "```python\nx = 2\n```\n```json\n1\n```").languages = ["python", "json"] := by cbv
  obtain ⟨python, foundPython⟩ := covered "python" (languages ▸ by decide)
  obtain ⟨json, foundJson⟩ := covered "json" (languages ▸ by decide)
  refine ⟨_, _, known, reached, python, json, foundPython, ?_, foundJson, ?_⟩
  · rw [(content _ _ foundPython).1]
    cbv
  · rw [(content _ _ foundJson).1]
    cbv

end Store

end LanguageBridge
