import LanguageBridge.Proofs.Store.Run

namespace LanguageBridge

/-! Which documents a store has, under which names, and how their versions count. A document that
changes gets a higher version; one of the same version is the same. -/

namespace Document

/-- What a document may become. -/
def Follows (later earlier : Document) : Prop :=
  later = earlier ∨ earlier.version < later.version

theorem Follows.trans {latest later earlier : Document} (second : latest.Follows later)
    (first : later.Follows earlier) : latest.Follows earlier := by
  rcases second with rfl | more
  · exact first
  · rcases first with rfl | less
    · exact Or.inr more
    · exact Or.inr (by omega)

theorem setLayout_follows (document : Document) (layout : Layout) :
    (document.setLayout layout).Follows document := by
  unfold setLayout
  split
  · exact Or.inl rfl
  · exact Or.inr (by simp only; omega)

end Document

/-! ### One host -/

namespace Host

/-- A host whose documents stand under their own names, each once, and no language is unnamed. -/
structure Proper (uri : String) (host : Host) : Prop where
  distinct : host.documents.Distinct
  named : host.Named uri
  given : ∀ language document, host.documents.get? language = some document → language ≠ ""
  languages : ∀ language ∈ host.extraction.languages, language ≠ ""

variable {host : Host} {padding : Padding} {uri : String}

theorem rebuild_proper (proper : host.Proper uri) {language : String} (given : language ≠ "") :
    (host.rebuild padding uri language).Proper uri where
  distinct := proper.distinct.put _ _
  named := rebuild_named proper.named language
  given := by
    intro wanted document found
    rw [rebuild_get?] at found
    split at found
    · rename_i same
      exact same ▸ given
    · exact proper.given wanted document found
  languages := proper.languages

theorem rebuildAll_proper (proper : host.Proper uri) {languages : List String}
    (given : ∀ language ∈ languages, language ≠ "") :
    (host.rebuildAll padding uri languages).Proper uri := by
  induction languages generalizing host with
  | nil => exact proper
  | cons language rest ih =>
    exact ih (rebuild_proper proper (given language List.mem_cons_self))
      fun other member => given other (List.mem_cons_of_mem _ member)

theorem rebuildAll_follows {languages : List String} {language : String} {document : Document}
    (found : host.documents.get? language = some document) :
    ∃ later, (host.rebuildAll padding uri languages).documents.get? language = some later ∧
      later.Follows document := by
  refine rebuildAll_preserves
    (fun host => ∃ later, host.documents.get? language = some later ∧ later.Follows document)
    languages ?_ ⟨document, found, Or.inl rfl⟩
  rintro before rebuilt ⟨later, held, follows⟩
  rw [rebuild_get?]
  split
  · rename_i same
    subst same
    refine ⟨_, rfl, ?_⟩
    rw [documentOf, held]
    exact (Document.setLayout_follows later _).trans follows
  · exact ⟨later, held, follows⟩

end Host

/-! ### The whole store -/

namespace Store

structure Proper (store : Store) : Prop where
  distinct : store.hosts.Distinct
  hosts : ∀ uri host, store.hosts.get? uri = some host → uri ≠ "" ∧ host.Proper uri

variable {store : Store} {uri text language : String} {document : Document}

theorem fresh_proper (padding : Padding) (names : LanguageNames) (rules : Option (List Rule)) :
    (fresh padding names rules).Proper :=
  ⟨List.nodup_nil, fun _ _ found => by cases found⟩

def putHost (store : Store) (uri : String) (host : Host) : Store :=
  { store with hosts := store.hosts.put uri host }

theorem get?_putHost (store : Store) (uri : String) (host : Host) (wanted language : String) :
    (store.putHost uri host).get? wanted language =
      if wanted = uri then host.documents.get? language else store.get? wanted language := by
  simp only [get?, putHost, Table.get?_put]
  split <;> rfl

theorem get?_close (store : Store) (uri wanted language : String) :
    (store.close uri).get? wanted language =
      if wanted = uri then none else store.get? wanted language := by
  simp only [get?, close, Table.get?_erase]
  split <;> rfl

theorem Proper.putHost (proper : store.Proper) {host : Host} (given : uri ≠ "")
    (hostProper : host.Proper uri) : (store.putHost uri host).Proper where
  distinct := proper.distinct.put uri host
  hosts := by
    intro wanted found known
    rcases Table.of_get?_put known with ⟨rfl, rfl⟩ | ⟨_, old⟩
    · exact ⟨given, hostProper⟩
    · exact proper.hosts wanted found old

theorem Proper.close (proper : store.Proper) (uri : String) : (store.close uri).Proper where
  distinct := proper.distinct.erase uri
  hosts := fun wanted found known => proper.hosts wanted found (Table.of_get?_erase known).2

/-! ### Opening and updating -/

theorem openHost_eq (store : Store) (uri text : String) (languageId : Option String) :
    store.openHost uri text languageId =
      store.putHost uri (store.openedHost uri text languageId) := rfl

theorem update_eq {old : Host} (tracked : store.hosts.get? uri = some old) (text : String)
    (changed : Option LineRange) :
    store.update uri text changed = store.putHost uri (store.updatedHost uri old text changed) := by
  simp only [update, tracked]
  rfl

theorem exists_update (store : Store) (uri text : String) (changed : Option LineRange) :
    ∃ host, store.update uri text changed = store.putHost uri host := by
  cases tracked : store.hosts.get? uri with
  | none => exact ⟨store.openedHost uri text none, by simp only [update, tracked]; rfl⟩
  | some old => exact ⟨_, update_eq tracked text changed⟩

theorem languages_putHost (store : Store) (uri : String) (host : Host) :
    (store.putHost uri host).languages uri = host.extraction.languages := by
  simp [languages, putHost, Table.get?_put]

theorem openHost_proper (proper : store.Proper) {languageId : Option String} (given : uri ≠ "")
    (languages : ∀ language ∈ (store.openHost uri text languageId).languages uri, language ≠ "") :
    (store.openHost uri text languageId).Proper := by
  rw [openHost_eq, languages_putHost, openedHost, Host.rebuildAll_extraction] at languages
  have bare : (store.bareHost text languageId).Proper uri :=
    ⟨List.nodup_nil, fun _ _ found => (by cases found), fun _ _ found => (by cases found), languages⟩
  exact proper.putHost given (Host.rebuildAll_proper bare languages)

theorem updatedHost_proper {old : Host} {changed : Option LineRange} (proper : old.Proper uri)
    (languages : ∀ language ∈ (store.extract text old.languageId).languages, language ≠ "") :
    (store.updatedHost uri old text changed).Proper uri := by
  have retexted : (store.retexted old text).Proper uri :=
    ⟨proper.distinct, proper.named, proper.given, languages⟩
  refine Host.rebuildAll_proper retexted ?_
  intro language stale
  simp only [staleLanguages, List.mem_filter, List.mem_eraseDups, List.mem_append] at stale
  rcases stale.1 with (before | now) | kept
  · exact proper.languages language before
  · exact languages language now
  · cases held : old.documents.get? language with
    | none => exact absurd kept (Table.get?_eq_none_iff.mp held)
    | some document => exact proper.given language document held

theorem update_proper (proper : store.Proper) {changed : Option LineRange} (given : uri ≠ "")
    (languages : ∀ language ∈ (store.update uri text changed).languages uri, language ≠ "") :
    (store.update uri text changed).Proper := by
  cases tracked : store.hosts.get? uri with
  | none =>
    simp only [update, tracked] at languages ⊢
    exact openHost_proper proper given languages
  | some old =>
    rw [update_eq tracked, languages_putHost, updatedHost, Host.rebuildAll_extraction] at languages
    rw [update_eq tracked]
    exact proper.putHost given (updatedHost_proper (proper.hosts uri old tracked).2 languages)

/-- One host goes on, and the others stay. -/
structure Advances (uri : String) (before after : Store) : Prop where
  others : ∀ wanted language, wanted ≠ uri → after.get? wanted language = before.get? wanted language
  follows : ∀ language document, before.get? uri language = some document →
    ∃ later, after.get? uri language = some later ∧ later.Follows document

theorem openHost_advances {languageId : Option String} (untracked : store.hosts.get? uri = none) :
    Advances uri store (store.openHost uri text languageId) where
  others := by
    intro wanted language other
    rw [openHost_eq, get?_putHost, if_neg other]
  follows := by
    intro language document found
    simp [get?, untracked] at found

theorem update_advances (store : Store) (uri text : String) (changed : Option LineRange) :
    Advances uri store (store.update uri text changed) := by
  cases tracked : store.hosts.get? uri with
  | none =>
    simp only [update, tracked]
    exact openHost_advances tracked
  | some old =>
    rw [update_eq tracked]
    constructor
    · intro wanted language other
      rw [get?_putHost, if_neg other]
    · intro language document found
      rw [get?_putHost, if_pos rfl]
      simp only [get?, tracked, Option.bind_some] at found
      have kept : (store.retexted old text).documents.get? language = some document := found
      exact Host.rebuildAll_follows kept

/-! ### Lists of documents -/

theorem mem_documents (found : store.get? uri language = some document) :
    document ∈ store.documents uri := by
  obtain ⟨host, tracked, held⟩ := Option.bind_eq_some_iff.mp found
  simp only [documents, tracked, Option.map_some, Option.getD_some]
  exact Table.mem_values_of_get? held

theorem Proper.named (proper : store.Proper) (found : store.get? uri language = some document) :
    (document.language = language ∧ document.hostUri = uri) ∧ uri ≠ "" ∧ language ≠ "" := by
  obtain ⟨host, tracked, held⟩ := Option.bind_eq_some_iff.mp found
  obtain ⟨given, hostProper⟩ := proper.hosts uri host tracked
  exact ⟨hostProper.named language document held, given, hostProper.given language document held⟩

theorem Proper.get?_of_mem_documents (proper : store.Proper)
    (member : document ∈ store.documents uri) :
    store.get? uri document.language = some document := by
  cases tracked : store.hosts.get? uri with
  | none => simp [documents, tracked] at member
  | some host =>
    simp only [documents, tracked, Option.map_some, Option.getD_some, Table.values,
      List.mem_map] at member
    obtain ⟨⟨language, _⟩, atDocument, rfl⟩ := member
    have hostProper := (proper.hosts uri host tracked).2
    have held := hostProper.distinct.get?_of_mem atDocument
    simp only [get?, tracked, Option.bind_some, (hostProper.named language _ held).1, held]

theorem Proper.mem_allDocuments (proper : store.Proper) (document : Document) :
    document ∈ store.allDocuments ↔
      store.get? document.hostUri document.language = some document := by
  simp only [allDocuments, List.mem_flatMap, Table.values, List.mem_map]
  constructor
  · rintro ⟨host, ⟨⟨uri, _⟩, atHost, rfl⟩, ⟨language, _⟩, atDocument, rfl⟩
    have tracked := proper.distinct.get?_of_mem atHost
    have hostProper := (proper.hosts uri _ tracked).2
    have held := hostProper.distinct.get?_of_mem atDocument
    obtain ⟨sameLanguage, sameUri⟩ := hostProper.named language _ held
    simp only [sameLanguage, sameUri, get?, tracked, Option.bind_some, held]
  · intro found
    obtain ⟨host, tracked, held⟩ := Option.bind_eq_some_iff.mp found
    exact ⟨host, ⟨_, Table.mem_entries_of_get? tracked, rfl⟩,
      _, Table.mem_entries_of_get? held, rfl⟩

theorem mem_languages_of_openHost {languageId : Option String}
    (found : (store.openHost uri text languageId).get? uri language = some document) :
    language ∈ (store.openHost uri text languageId).languages uri := by
  rw [openHost_eq, get?_putHost, if_pos rfl] at found
  rw [openHost_eq, languages_putHost, openedHost, Host.rebuildAll_extraction]
  by_cases member : language ∈ (store.extract text languageId).languages
  · exact member
  · rw [openedHost, Host.rebuildAll_other member] at found
    cases found

theorem mem_changedLanguages {before after : Store} (proper : after.Proper)
    (found : after.get? uri language = some document)
    (differs : ∀ old, before.get? uri language = some old → old.version ≠ document.version) :
    language ∈ changedLanguages before after uri := by
  obtain ⟨⟨sameLanguage, _⟩, _⟩ := proper.named found
  refine List.mem_map.mpr ⟨document, List.mem_filter.mpr ⟨mem_documents found, ?_⟩, sameLanguage⟩
  rw [decide_eq_true_eq, sameLanguage]
  cases held : before.get? uri language with
  | none => simp
  | some old => simpa using differs old held

/-- A document of a host that went on is the same as before, or it is reported. -/
theorem Advances.same_or_changed {before after : Store} (advances : Advances uri before after)
    (proper : after.Proper) (found : after.get? uri language = some document) :
    before.get? uri language = some document ∨ language ∈ changedLanguages before after uri := by
  cases held : before.get? uri language with
  | none => exact Or.inr (mem_changedLanguages proper found fun old oldFound => by
      rw [held] at oldFound; contradiction)
  | some old =>
    obtain ⟨later, foundLater, follows⟩ := advances.follows language old held
    cases found.symm.trans foundLater
    rcases follows with rfl | newer
    · exact Or.inl rfl
    · refine Or.inr (mem_changedLanguages proper found fun present foundPresent => ?_)
      cases held.symm.trans foundPresent
      omega

end Store

end LanguageBridge
