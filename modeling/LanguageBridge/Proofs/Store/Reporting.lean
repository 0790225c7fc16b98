import LanguageBridge.Proofs.Store.Coverage
import LanguageBridge.Proofs.Store.Versions

namespace LanguageBridge

/-! What an update reports. A document counts a version for every change and for nothing else, so
the languages whose versions differ are the languages whose documents do. -/

namespace Document

theorem setLayout_idempotent (document : Document) (layout : Layout) :
    (document.setLayout layout).setLayout layout = document.setLayout layout := by
  conv_lhs => rw [setLayout]
  exact if_pos ⟨(setLayout_text document layout).symm, (setLayout_chunks document layout).symm⟩

theorem setLayout_same {document : Document} {layout : Layout}
    (same : layout.text = document.text ∧ layout.chunks = document.chunks) :
    document.setLayout layout = document :=
  if_pos same

theorem setLayout_version {document : Document} {layout : Layout}
    (differs : ¬ (layout.text = document.text ∧ layout.chunks = document.chunks)) :
    (document.setLayout layout).version = document.version + 1 := by
  rw [setLayout, if_neg differs]

/-- What becomes of a document when its host is updated: it stays, or it changes and counts one
version more, or it is new and has the first version. -/
inductive Updated : Option Document → Option Document → Prop where
  | kept (document : Option Document) : Updated document document
  | changed {old new : Document} (differs : new.text ≠ old.text ∨ new.chunks ≠ old.chunks)
      (counted : new.version = old.version + 1) : Updated (some old) (some new)
  | created {new : Document} (counted : new.version = 1) : Updated none (some new)

theorem setLayout_updated (document : Document) (layout : Layout) :
    Updated (some document) (some (document.setLayout layout)) := by
  by_cases same : layout.text = document.text ∧ layout.chunks = document.chunks
  · rw [setLayout_same same]
    exact .kept _
  · refine .changed ?_ (setLayout_version same)
    rw [setLayout_text, setLayout_chunks]
    exact Classical.not_and_iff_not_or_not.mp same

/-- The version tells whether a document has changed. -/
theorem Updated.version_iff {before : Option Document} {new : Document}
    (updated : Updated before (some new)) :
    before.map Document.version ≠ some new.version ↔
      ∀ old, before = some old → new.text ≠ old.text ∨ new.chunks ≠ old.chunks := by
  cases updated with
  | kept => simp
  | changed differs counted =>
    constructor
    · rintro _ old same
      cases same
      exact differs
    · intro _
      simp [counted]
  | created => simp

theorem Updated.version {before : Option Document} {new : Document}
    (updated : Updated before (some new)) (moved : before.map Document.version ≠ some new.version) :
    new.version = (before.map fun old => old.version + 1).getD 1 := by
  cases updated with
  | kept => exact absurd rfl moved
  | changed _ counted => exact counted
  | created counted => exact counted

end Document

namespace Host

variable {host : Host} {padding : Padding} {uri language : String}

theorem rebuildAll_get? (languages : List String) :
    (host.rebuildAll padding uri languages).documents.get? language =
      if language ∈ languages then
        some ((host.documentOf uri language).setLayout (host.layoutOf padding language))
      else host.documents.get? language := by
  induction languages generalizing host with
  | nil => rfl
  | cons first rest ih =>
    change Table.get?
      ((host.rebuild padding uri first).rebuildAll padding uri rest).documents language = _
    rw [ih, rebuild_get?]
    by_cases same : language = first
    · subst same
      -- a language that is named again is laid out again, which changes nothing
      have again : ((host.rebuild padding uri language).documentOf uri language).setLayout
          (host.layoutOf padding language) =
            (host.documentOf uri language).setLayout (host.layoutOf padding language) := by
        rw [documentOf, rebuild_get?, if_pos rfl, Option.getD_some,
          Document.setLayout_idempotent]
      rw [if_pos rfl, if_pos List.mem_cons_self]
      split
      · exact congrArg some again
      · rfl
    · have other : (host.rebuild padding uri first).documentOf uri language =
          host.documentOf uri language := by
        rw [documentOf, rebuild_get?, if_neg same]
        rfl
      rw [if_neg same, other]
      simp only [List.mem_cons, same, false_or]
      rfl

/-- The documents of a host stand under their own languages, each once. -/
structure Listed (uri : String) (host : Host) : Prop where
  distinct : host.documents.Distinct
  named : host.Named uri

theorem Listed.rebuild (listed : host.Listed uri) (language : String) :
    (host.rebuild padding uri language).Listed uri :=
  ⟨listed.distinct.put _ _, rebuild_named listed.named language⟩

theorem Listed.rebuildAll (listed : host.Listed uri) (languages : List String) :
    (host.rebuildAll padding uri languages).Listed uri :=
  rebuildAll_preserves (Listed uri) languages (fun _ language held => held.rebuild language) listed

theorem Listed.languages (listed : host.Listed uri) :
    host.documents.values.map Document.language = host.documents.keys := by
  rw [Table.values, Table.keys, List.map_map]
  refine List.map_congr_left fun entry member => ?_
  exact (listed.named entry.1 entry.2 (listed.distinct.get?_of_mem member)).1

end Host

namespace Store

variable {store settings before after : Store} {allowed : Store → StoreStep → Prop}
  {history : List StoreStep} {uri language : String} {host : Host}

theorem reached_listed (reached : Reached apply allowed settings history store)
    (empty : settings.hosts = .empty) (found : store.hosts.get? uri = some host) :
    host.Listed uri := by
  refine reached_hosts reached empty Host.Listed ?_ ?_ ?_ found
  · intro store _ uri text languageId
    have bare : (store.bareHost text languageId).Listed uri :=
      ⟨List.nodup_nil, fun _ _ held => by cases held⟩
    exact bare.rebuildAll _
  · intro store _ uri old text changed _ _ listed
    have retexted : (store.retexted old text).Listed uri := ⟨listed.distinct, listed.named⟩
    exact retexted.rebuildAll _
  · intro store _ uri old language listed
    exact listed.rebuild language

/-! ### What is reported -/

theorem mem_changedLanguages_iff (tracked : after.hosts.get? uri = some host)
    (listed : host.Listed uri) :
    language ∈ changedLanguages before after uri ↔
      ∃ document, after.get? uri language = some document ∧
        (before.get? uri language).map Document.version ≠ some document.version := by
  simp only [changedLanguages, documents, get?, tracked, Option.map_some, Option.getD_some,
    Option.bind_some, List.mem_map, List.mem_filter]
  constructor
  · rintro ⟨document, ⟨member, differs⟩, rfl⟩
    obtain ⟨entry, inTable, isValue⟩ := List.mem_map.mp member
    have held := listed.distinct.get?_of_mem inTable
    rw [isValue] at held
    rw [← (listed.named entry.1 document held).1] at held
    exact ⟨document, held, of_decide_eq_true differs⟩
  · rintro ⟨document, held, differs⟩
    have same := (listed.named language document held).1
    refine ⟨document, ⟨Table.mem_values_of_get? held, decide_eq_true ?_⟩, same⟩
    rw [same]
    exact differs

theorem changedLanguages_nodup (tracked : after.hosts.get? uri = some host)
    (listed : host.Listed uri) : (changedLanguages before after uri).Nodup := by
  simp only [changedLanguages, documents, tracked, Option.map_some, Option.getD_some]
  have keys := listed.distinct
  rw [Table.Distinct, ← listed.languages] at keys
  exact keys.sublist (List.filter_sublist.map Document.language)

/-! ### What an update does to each document -/

/-- A language that is looked at for the first time has come in with the new text. -/
theorem mem_languages_of_stale {old : Host} {changed : Option LineRange} {extraction : Extraction}
    (covered : old.Covered) (stale : language ∈ staleLanguages changed old extraction)
    (absent : old.documents.get? language = none) : language ∈ extraction.languages := by
  simp only [staleLanguages, List.mem_filter, List.mem_eraseDups, List.mem_append] at stale
  rcases stale.1 with (before | now) | kept
  · obtain ⟨document, held⟩ := covered language before
    rw [absent] at held
    contradiction
  · exact now
  · exact absurd kept (Table.get?_eq_none_iff.mp absent)

theorem layoutOf_chunks_ne_nil {padding : Padding}
    (known : language ∈ host.extraction.languages) :
    (host.layoutOf padding language).chunks ≠ [] := by
  intro none
  have unplaced := host.layoutOf_unplaced padding language
  rw [none, List.map_nil, eq_comm, List.map_eq_nil_iff, Extraction.chunksOf_eq_nil] at unplaced
  exact unplaced known

theorem updatedHost_updated {old : Host} (covered : old.Covered) (text : String)
    (changed : Option LineRange) (language : String) :
    Document.Updated (old.documents.get? language)
      ((store.updatedHost uri old text changed).documents.get? language) := by
  rw [updatedHost, Host.rebuildAll_get?]
  split
  · rename_i stale
    have same : (store.retexted old text).documentOf uri language =
        old.documentOf uri language := rfl
    rw [same, Host.documentOf]
    cases held : old.documents.get? language with
    | some document => exact Document.setLayout_updated document _
    | none =>
      have known := mem_languages_of_stale covered stale held
      refine .created (Document.setLayout_version ?_)
      rintro ⟨_, noChunks⟩
      exact layoutOf_chunks_ne_nil known noChunks
  · exact .kept _

theorem update_updated {old : Host} (tracked : store.hosts.get? uri = some old)
    (covered : old.Covered) (text : String) (changed : Option LineRange) (language : String) :
    Document.Updated (store.get? uri language)
      ((store.update uri text changed).get? uri language) := by
  rw [update_eq tracked, get?_putHost, if_pos rfl]
  simpa only [get?, tracked, Option.bind_some] using updatedHost_updated covered text changed language

/-! ### Versions along a run -/

/-- A step that neither opens nor closes a host. -/
def Spares (uri : String) (_ : Store) : StoreStep → Prop
  | .openHost opened _ _ => opened ≠ uri
  | .close closed => closed ≠ uri
  | .update _ _ _ | .rebuild _ _ => True

theorem apply_follows {step : StoreStep} (spares : Spares uri store step) {document : Document}
    (found : store.get? uri language = some document) :
    ∃ later, (store.apply step).get? uri language = some later ∧ later.Follows document := by
  cases step with
  | openHost opened text languageId =>
    refine ⟨document, ?_, Or.inl rfl⟩
    rw [apply, openHost_eq, get?_putHost, if_neg (Ne.symm spares)]
    exact found
  | update updated text changed =>
    have advances := update_advances store updated text changed
    by_cases same : uri = updated
    · subst same
      exact advances.follows language document found
    · exact ⟨document, (advances.others uri language same).trans found, Or.inl rfl⟩
  | rebuild rebuilt other =>
    cases tracked : store.hosts.get? rebuilt with
    | none =>
      refine ⟨document, ?_, Or.inl rfl⟩
      simp only [apply, rebuild, tracked]
      exact found
    | some host =>
      have next : store.apply (.rebuild rebuilt other) =
          store.putHost rebuilt (host.rebuildAll store.padding rebuilt [other]) := by
        simp only [apply, rebuild, tracked]
        rfl
      rw [next, get?_putHost]
      by_cases same : uri = rebuilt
      · subst same
        simp only [get?, tracked, Option.bind_some] at found
        rw [if_pos rfl]
        exact Host.rebuildAll_follows found
      · rw [if_neg same]
        exact ⟨document, found, Or.inl rfl⟩
  | close closed =>
    refine ⟨document, ?_, Or.inl rfl⟩
    rw [apply, get?_close, if_neg (Ne.symm spares)]
    exact found

theorem reached_follows {later : Store} {steps : List StoreStep}
    (run : Reached apply (Spares uri) store steps later) {document : Document}
    (found : store.get? uri language = some document) :
    ∃ reachedDocument, later.get? uri language = some reachedDocument ∧
      reachedDocument.Follows document := by
  refine run.invariant (fun store => ∃ reachedDocument,
    store.get? uri language = some reachedDocument ∧ reachedDocument.Follows document)
    ⟨document, found, Or.inl rfl⟩ ?_
  rintro store step spares ⟨earlier, held, follows⟩
  obtain ⟨next, heldNext, followsNext⟩ := apply_follows spares held
  exact ⟨next, heldNext, followsNext.trans follows⟩

variable {padding : Padding} {names : LanguageNames} {rules : Option (List Rule)}

/-- An update of a host reports, each once, the languages whose document is new or has another text
or other chunks than before. Such a document has the first version or one version more, and no other
document of any host is touched. So as long as the host is neither opened again nor closed, a
document of the same version is the same. -/
theorem update_reports_changed_documents
    (reached : Reached apply Anything (fresh padding names rules) history store)
    (tracked : store.contains uri = true) (text : String) (changed : Option LineRange) :
    let after := store.update uri text changed
    let reported := changedLanguages store after uri
    reported.Nodup ∧
    (∀ language, language ∈ reported ↔
      ∃ document, after.get? uri language = some document ∧
        ∀ old, store.get? uri language = some old →
          document.text ≠ old.text ∨ document.chunks ≠ old.chunks) ∧
    (∀ language ∈ reported, ∃ document, after.get? uri language = some document ∧
      document.version = ((store.get? uri language).map fun old => old.version + 1).getD 1) ∧
    (∀ wanted language, wanted ≠ uri ∨ language ∉ reported →
      after.get? wanted language = store.get? wanted language) ∧
    ∀ steps later, Reached apply (Spares uri) store steps later →
      ∀ language document laterDocument, store.get? uri language = some document →
        later.get? uri language = some laterDocument → laterDocument.version = document.version →
          laterDocument.text = document.text ∧ laterDocument.chunks = document.chunks := by
  intro after reported
  obtain ⟨old, isTracked⟩ := Option.isSome_iff_exists.mp tracked
  have covered := reached_covered reached rfl isTracked
  have updated : ∀ language, Document.Updated (store.get? uri language) (after.get? uri language) :=
    update_updated isTracked covered text changed
  have reachedAfter : Reached apply Anything (fresh padding names rules)
      (.update uri text changed :: history) after :=
    .step reached (.update uri text changed) trivial
  have trackedAfter : after.hosts.get? uri = some (store.updatedHost uri old text changed) := by
    simp only [after, update_eq isTracked, putHost, Table.get?_put, if_true]
  have listed := reached_listed reachedAfter rfl trackedAfter
  have reportedIff : ∀ language, language ∈ reported ↔
      ∃ document, after.get? uri language = some document ∧
        (store.get? uri language).map Document.version ≠ some document.version :=
    fun language => mem_changedLanguages_iff trackedAfter listed
  refine ⟨changedLanguages_nodup trackedAfter listed, ?_, ?_, ?_, ?_⟩
  · intro language
    rw [reportedIff]
    refine exists_congr fun document => and_congr_right fun found => ?_
    exact (found ▸ updated language).version_iff
  · intro language isReported
    obtain ⟨document, found, moved⟩ := (reportedIff language).mp isReported
    exact ⟨document, found, (found ▸ updated language).version moved⟩
  · intro wanted language outside
    by_cases other : wanted = uri
    · subst other
      have unreported := outside.resolve_left (not_not_intro rfl)
      rw [reportedIff, not_exists] at unreported
      have step := updated language
      generalize store.get? wanted language = earlier at step unreported
      generalize after.get? wanted language = later at step unreported
      cases step with
      | kept => rfl
      | changed _ counted => exact absurd ⟨rfl, by simp [counted]⟩ (unreported _)
      | created => exact absurd ⟨rfl, by simp⟩ (unreported _)
    · exact (update_advances store uri text changed).others wanted language other
  · intro steps later run language document laterDocument found foundLater same
    obtain ⟨reachedDocument, held, follows⟩ := reached_follows run found
    cases foundLater.symm.trans held
    rcases follows with rfl | more
    · exact ⟨rfl, rfl⟩
    · omega

/-- One language goes, another comes, and the third stays, by an update that is given a wrong range.
The document of the first is empty then, the second has its first version, and rebuilding the third
does not touch it. -/
theorem update_reports_lost_and_new_language :
    ∃ history store, Reached apply Anything (fresh .compact .standard none) history store ∧
      store.contains "h" = true ∧
      let after :=
        store.update "h" "```python\nx\n```\n```bash\nls\n```" (some ⟨9, 9⟩)
      changedLanguages store after "h" = ["json", "bash"] ∧
      (∃ json, after.get? "h" "json" = some json ∧ json.version = 2) ∧
      (∃ bash, after.get? "h" "bash" = some bash ∧ bash.version = 1) ∧
      after.get? "h" "python" = store.get? "h" "python" ∧
      ∃ python later, store.get? "h" "python" = some python ∧
        (store.apply (.rebuild "h" "python")).get? "h" "python" = some later ∧
        later.text = python.text ∧ later.chunks = python.chunks := by
  let opening : StoreStep := .openHost "h" "```python\nx\n```\n```json\n1\n```" none
  let store := (fresh .compact .standard none).apply opening
  let text := "```python\nx\n```\n```bash\nls\n```"
  have reached : Reached apply Anything (fresh .compact .standard none) [opening] store :=
    .step .start opening trivial
  have facts : (store.contains "h",
      changedLanguages store (store.update "h" text (some ⟨9, 9⟩)) "h",
      ["python", "json", "bash"].map fun language =>
        (store.get? "h" language).map Document.version,
      ((store.apply (.rebuild "h" "python")).get? "h" "python").map Document.version) =
        (true, ["json", "bash"], [some 1, some 1, none], some 1) := by cbv
  simp only [List.map_cons, List.map_nil, Prod.mk.injEq, List.cons.injEq, and_true] at facts
  obtain ⟨tracked, reported, ⟨ofPython, ofJson, ofBash⟩, again⟩ := facts
  obtain ⟨-, -, counted, kept, along⟩ :=
    update_reports_changed_documents reached tracked text (some ⟨9, 9⟩)
  simp only [reported] at counted kept
  obtain ⟨json, foundJson, jsonVersion⟩ := counted "json" (by decide)
  obtain ⟨bash, foundBash, bashVersion⟩ := counted "bash" (by decide)
  obtain ⟨oldJson, heldJson, wasOne⟩ := Option.map_eq_some_iff.mp ofJson
  obtain ⟨python, foundPython, pythonVersion⟩ := Option.map_eq_some_iff.mp ofPython
  obtain ⟨later, foundLater, laterVersion⟩ := Option.map_eq_some_iff.mp again
  rw [heldJson, Option.map_some, Option.getD_some, wasOne] at jsonVersion
  rw [Option.map_eq_none_iff.mp ofBash] at bashVersion
  have rebuilt : Reached apply (Spares "h") store [.rebuild "h" "python"]
      (store.apply (.rebuild "h" "python")) := .step .start _ trivial
  exact ⟨[opening], store, reached, tracked, reported, ⟨json, foundJson, jsonVersion⟩,
    ⟨bash, foundBash, bashVersion⟩, kept "h" "python" (Or.inr (by decide)), python, later,
    foundPython, foundLater,
    along _ _ rebuilt "python" python later foundPython foundLater
      (laterVersion.trans pythonVersion.symm)⟩

end Store

end LanguageBridge
