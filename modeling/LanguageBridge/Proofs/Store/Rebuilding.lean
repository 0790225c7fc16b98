import LanguageBridge.Proofs.Layout
import LanguageBridge.Store

namespace LanguageBridge

/-! What rebuilding does to the documents of a host: those of the named languages get the layout
of the present text, and no other is touched. -/

namespace Document

@[simp] theorem setLayout_language (document : Document) (layout : Layout) :
    (document.setLayout layout).language = document.language := by
  unfold setLayout
  split <;> rfl

@[simp] theorem setLayout_hostUri (document : Document) (layout : Layout) :
    (document.setLayout layout).hostUri = document.hostUri := by
  unfold setLayout
  split <;> rfl

@[simp] theorem setLayout_text (document : Document) (layout : Layout) :
    (document.setLayout layout).text = layout.text := by
  unfold setLayout
  split
  · rename_i same
    exact same.1.symm
  · rfl

@[simp] theorem setLayout_chunks (document : Document) (layout : Layout) :
    (document.setLayout layout).chunks = layout.chunks := by
  unfold setLayout
  split
  · rename_i same
    exact same.2.symm
  · rfl

end Document

namespace Host

/-- The layout that a language of a host has now. -/
def layoutOf (host : Host) (padding : Padding) (language : String) : Layout :=
  Layout.ofChunks padding host.lines (host.extraction.chunksOf language)

def documentOf (host : Host) (uri language : String) : Document :=
  (host.documents.get? language).getD { language := language, hostUri := uri }

variable {host : Host} {padding : Padding} {uri : String}

theorem rebuild_get? (language other : String) :
    (host.rebuild padding uri language).documents.get? other =
      if other = language then
        some ((host.documentOf uri language).setLayout (host.layoutOf padding language))
      else host.documents.get? other :=
  Table.get?_put _ _ _ _

theorem rebuildAll_frame (languages : List String) :
    host.rebuildAll padding uri languages =
      { host with documents := (host.rebuildAll padding uri languages).documents } := by
  induction languages generalizing host with
  | nil => rfl
  | cons language rest ih => exact ih

@[simp] theorem rebuildAll_text (languages : List String) :
    (host.rebuildAll padding uri languages).text = host.text := by
  rw [rebuildAll_frame]

@[simp] theorem rebuildAll_lines (languages : List String) :
    (host.rebuildAll padding uri languages).lines = host.lines := by
  rw [rebuildAll_frame]

@[simp] theorem rebuildAll_extraction (languages : List String) :
    (host.rebuildAll padding uri languages).extraction = host.extraction := by
  rw [rebuildAll_frame]

@[simp] theorem rebuildAll_languageId (languages : List String) :
    (host.rebuildAll padding uri languages).languageId = host.languageId := by
  rw [rebuildAll_frame]

theorem rebuildAll_other {languages : List String} {language : String}
    (absent : language ∉ languages) :
    (host.rebuildAll padding uri languages).documents.get? language =
      host.documents.get? language := by
  induction languages generalizing host with
  | nil => rfl
  | cons first rest ih =>
    rw [List.mem_cons, not_or] at absent
    exact (ih absent.2).trans (by rw [rebuild_get?, if_neg absent.1])

theorem rebuildAll_laid (host : Host) (padding : Padding) (uri : String) {languages : List String}
    {language : String} (member : language ∈ languages) :
    ∃ document, (host.rebuildAll padding uri languages).documents.get? language = some document ∧
      document.text = (host.layoutOf padding language).text ∧
      document.chunks = (host.layoutOf padding language).chunks := by
  induction languages generalizing host with
  | nil => contradiction
  | cons first rest ih =>
    -- a language may be named more than once, and the last time counts
    by_cases again : language ∈ rest
    · exact ih (host.rebuild padding uri first) again
    · have same : language = first := (List.mem_cons.mp member).resolve_right again
      subst same
      have kept : (host.rebuildAll padding uri (language :: rest)).documents.get? language =
          (host.rebuild padding uri language).documents.get? language :=
        rebuildAll_other again
      rw [rebuild_get?, if_pos rfl] at kept
      exact ⟨_, kept, Document.setLayout_text _ _, Document.setLayout_chunks _ _⟩

/-- Whatever rebuilding one language keeps of the documents, rebuilding several keeps. -/
theorem rebuildAll_preserves (keeps : Host → Prop) (languages : List String)
    (step : ∀ before language, keeps before → keeps (before.rebuild padding uri language))
    (held : keeps host) : keeps (host.rebuildAll padding uri languages) := by
  induction languages generalizing host with
  | nil => exact held
  | cons language rest ih => exact ih (step host language held)

def Named (uri : String) (host : Host) : Prop :=
  ∀ language document, host.documents.get? language = some document →
    document.language = language ∧ document.hostUri = uri

theorem rebuild_named (named : host.Named uri) (language : String) :
    (host.rebuild padding uri language).Named uri := by
  intro wanted document found
  rw [rebuild_get?] at found
  split at found
  · rename_i same
    subst same
    cases found
    rw [Document.setLayout_language, Document.setLayout_hostUri, documentOf]
    cases held : host.documents.get? wanted with
    | none => exact ⟨rfl, rfl⟩
    | some document => exact named wanted document held
  · exact named wanted document found

end Host

end LanguageBridge
