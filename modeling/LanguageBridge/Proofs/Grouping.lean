import Mathlib.Data.List.Induction
import LanguageBridge.Proofs.Extraction

namespace LanguageBridge.Extraction

/-! The chunks of a host by language. The languages stand in the order in which they first come up,
and every chunk stands under its own. -/

/-- The chunks by language, as they are collected one after the other. -/
def grouped (extraction : Extraction) : Table String (List Chunk) :=
  extraction.chunks.foldl
    (fun groups chunk =>
      groups.put chunk.language ((groups.get? chunk.language).getD [] ++ [chunk])) {}

/-- The place of the first chunk of a language. -/
def firstPlace (extraction : Extraction) (language : String) : Nat :=
  extraction.chunks.findIdx fun chunk => chunk.language = language

/-! ### One more chunk -/

section Snoc

variable (chunks : List Chunk) (chunk : Chunk) (malformed : List MalformedRegion)
  (language : String)

theorem languages_snoc :
    (Extraction.mk (chunks ++ [chunk]) malformed).languages =
      if chunk.language ∈ (Extraction.mk chunks malformed).languages then
        (Extraction.mk chunks malformed).languages
      else (Extraction.mk chunks malformed).languages ++ [chunk.language] := by
  simp only [languages, List.map_append, List.foldl_append]
  rfl

theorem chunksOf_snoc :
    (Extraction.mk (chunks ++ [chunk]) malformed).chunksOf language =
      (Extraction.mk chunks malformed).chunksOf language ++
        if chunk.language = language then [chunk] else [] := by
  by_cases same : chunk.language = language <;> simp [chunksOf, same]

theorem grouped_snoc :
    (Extraction.mk (chunks ++ [chunk]) malformed).grouped =
      (Extraction.mk chunks malformed).grouped.put chunk.language
        (((Extraction.mk chunks malformed).grouped.get? chunk.language).getD [] ++ [chunk]) := by
  simp only [grouped, List.foldl_append]
  rfl

end Snoc

theorem mem_languages_iff_firstPlace {extraction : Extraction} {language : String} :
    language ∈ extraction.languages ↔
      extraction.firstPlace language < extraction.chunks.length := by
  simp [mem_languages, firstPlace, List.findIdx_lt_length]

/-! ### Order of first appearance -/

theorem languages_in_order (extraction : Extraction) :
    extraction.languages.Pairwise fun earlier later =>
      extraction.firstPlace earlier < extraction.firstPlace later := by
  obtain ⟨chunks, malformed⟩ := extraction
  induction chunks using List.reverseRecOn with
  | nil => exact List.Pairwise.nil
  | append_singleton chunks chunk ih =>
    -- what has come up before keeps its place
    have kept : ∀ language ∈ (Extraction.mk chunks malformed).languages,
        (Extraction.mk (chunks ++ [chunk]) malformed).firstPlace language =
          (Extraction.mk chunks malformed).firstPlace language := by
      intro language known
      simp only [firstPlace, List.findIdx_append]
      exact if_pos (mem_languages_iff_firstPlace.mp known)
    have before := ih.imp_of_mem fun first second less => by
      rw [← kept _ first, ← kept _ second] at less
      exact less
    rw [languages_snoc]
    split
    · exact before
    · rename_i fresh
      refine List.pairwise_append.mpr ⟨before, List.pairwise_singleton _ _, ?_⟩
      intro language known added isAdded
      obtain rfl := List.mem_singleton.mp isAdded
      have early := mem_languages_iff_firstPlace.mp known
      have late := mem_languages_iff_firstPlace.not.mp fresh
      rw [kept language known]
      simp only [firstPlace, List.findIdx_append] at early late ⊢
      rw [if_neg late]
      omega

theorem languages_nodup (extraction : Extraction) : extraction.languages.Nodup :=
  (languages_in_order extraction).imp fun {_ _} less same => by
    rw [same] at less
    exact Nat.lt_irrefl _ less

/-! ### Groups -/

/-- Collecting the chunks one after the other gives, for each language in turn, the chunks that are
in it. -/
theorem grouped_eq (extraction : Extraction) :
    extraction.grouped =
      ⟨extraction.languages.map fun language => (language, extraction.chunksOf language)⟩ := by
  obtain ⟨chunks, malformed⟩ := extraction
  induction chunks using List.reverseRecOn with
  | nil => rfl
  | append_singleton chunks chunk ih =>
    rw [grouped_snoc, ih, Table.get?_tabulate, Table.put_tabulate, languages_snoc]
    congr 1
    refine List.map_congr_left fun language _ => ?_
    by_cases same : language = chunk.language
    · subst same
      rw [if_pos rfl, chunksOf_snoc, if_pos rfl]
      split
      · rfl
      · rename_i fresh
        rw [Option.getD_none, chunksOf_eq_nil.mpr fresh]
    · rw [if_neg same, chunksOf_snoc, if_neg (Ne.symm same), List.append_nil]

/-- Groups of different languages share no chunk, and together they are all chunks of these
languages. -/
theorem flatMap_chunksOf_perm (extraction : Extraction) {languages : List String}
    (distinct : languages.Nodup) :
    (languages.flatMap extraction.chunksOf).Perm
      (extraction.chunks.filter fun chunk => chunk.language ∈ languages) := by
  induction languages with
  | nil => simp
  | cons first rest ih =>
    obtain ⟨fresh, restDistinct⟩ := List.nodup_cons.mp distinct
    have split := List.filter_append_perm (fun chunk : Chunk => chunk.language = first)
      (extraction.chunks.filter fun chunk => chunk.language ∈ first :: rest)
    rw [List.filter_filter, List.filter_filter] at split
    rw [List.flatMap_cons]
    refine (List.Perm.append_left _ (ih restDistinct)).trans (.trans (.of_eq ?_) split)
    congr 1
    · refine List.filter_congr fun chunk _ => ?_
      by_cases same : chunk.language = first <;> simp [same]
    · refine List.filter_congr fun chunk _ => ?_
      by_cases same : chunk.language = first
      · simp [same, fresh]
      · simp [same]

theorem languages_flatMap_chunksOf_perm (extraction : Extraction) :
    (extraction.languages.flatMap extraction.chunksOf).Perm extraction.chunks := by
  have groups := flatMap_chunksOf_perm extraction (languages_nodup extraction)
  rwa [List.filter_eq_self.mpr] at groups
  intro chunk member
  exact decide_eq_true (mem_languages.mpr ⟨chunk, member, rfl⟩)

/-! ### The chunks of a text -/

/-- Whatever the rules find in a text, the chunks leave out its first and its last line, none is
empty, and each ends before the next one starts. By language they fall into groups: these are the
chunks of one language in their order, and the languages come in the order of their first chunks. -/
theorem ofText_chunks_ordered_and_grouped (rules : List Rule) (names : LanguageNames)
    (text : String) :
    let extraction := ofText rules names text
    (∀ chunk ∈ extraction.chunks, 1 ≤ chunk.hostStart ∧ chunk.hostStart ≤ chunk.hostEnd ∧
      chunk.hostEnd ≤ ((Text.splitLines text).length : Int) - 2) ∧
    (∀ (i : Nat) (inside : i + 1 < extraction.chunks.length),
      extraction.chunks[i].hostEnd < extraction.chunks[i + 1].hostStart) ∧
    extraction.grouped.entries =
      extraction.languages.map (fun language => (language, extraction.chunksOf language)) ∧
    (∀ language, (extraction.chunksOf language).Sublist extraction.chunks ∧
      ∀ chunk, chunk ∈ extraction.chunksOf language ↔
        chunk ∈ extraction.chunks ∧ chunk.language = language) ∧
    (extraction.languages.flatMap extraction.chunksOf).Perm extraction.chunks ∧
    (∀ language, language ∈ extraction.languages ↔
      extraction.firstPlace language < extraction.chunks.length) ∧
    extraction.languages.Pairwise (fun earlier later =>
      extraction.firstPlace earlier < extraction.firstPlace later) := by
  intro extraction
  refine ⟨?_, ?_, ?_, ?_, languages_flatMap_chunksOf_perm extraction,
    fun language => mem_languages_iff_firstPlace, languages_in_order extraction⟩
  · intro chunk member
    have enclosed := ofText_enclosed rules names text chunk member
    have below := enclosed.below
    exact ⟨enclosed.positive, enclosed.ordered, by omega⟩
  · intro i inside
    exact List.pairwise_iff_getElem.mp (ofText_apart rules names text) i (i + 1)
      (Nat.lt_of_succ_lt inside) inside (Nat.lt_succ_self i)
  · rw [grouped_eq]
  · intro language
    exact ⟨List.filter_sublist, fun chunk => mem_chunksOf⟩

end LanguageBridge.Extraction
