import LanguageBridge.Region.Extraction
import LanguageBridge.Proofs.Region.FenceStructure
import LanguageBridge.Proofs.Region.TagRegions

namespace LanguageBridge

/-! Where chunks can lie. Every region has a marker line above it and one below it, and the
accepted regions follow one another. -/

/-- A run of lines that leaves out at least the first and the last of `total` lines. -/
structure Region.Enclosed (total : Nat) (region : Region) : Prop where
  positive : 1 ≤ region.first
  ordered : region.first ≤ region.last
  below : region.last + 2 ≤ total

structure Chunk.Enclosed (total : Nat) (chunk : Chunk) : Prop where
  positive : 1 ≤ chunk.hostStart
  ordered : chunk.hostStart ≤ chunk.hostEnd
  below : chunk.hostEnd + 2 ≤ total

def ChunksApart (chunks : List Chunk) : Prop :=
  chunks.Pairwise fun a b => a.hostEnd < b.hostStart

/-! ### What the rules find -/

theorem Rule.scan_enclosed (rule : Rule) (names : LanguageNames) (lines : List (List Char)) :
    ∀ region ∈ (rule.scan names lines).regions, region.Enclosed lines.length := by
  intro region member
  cases rule with
  | fence =>
    obtain ⟨marker, closer, fence, info, language, -, closed, -, long, rfl⟩ :=
      (Fence.scan_structured names lines).of_mem_regions member
    obtain ⟨line, here, -⟩ := closed.ends
    have inside := (List.getElem?_eq_some_iff.mp here).1
    constructor <;> simp only <;> omega
  | tag rule =>
    obtain ⟨opened, closed, rfl, long, -, stops, -⟩ := TagRule.mem_regions_scan member
    obtain ⟨line, here, -⟩ := stops
    have inside := (List.getElem?_eq_some_iff.mp here).1
    constructor <;> simp only <;> omega

namespace Extraction

/-! ### What is accepted -/

theorem accept_after (lastEnd : Int) (regions : List Region)
    (ordered : ∀ region ∈ regions, region.first ≤ region.last) :
    ∀ chunk ∈ (accept lastEnd regions).chunks, lastEnd < chunk.hostStart := by
  induction regions generalizing lastEnd with
  | nil => simp [accept]
  | cons region rest ih =>
    have later := fun start => ih start fun other member =>
      ordered other (List.mem_cons_of_mem _ member)
    have long := ordered region List.mem_cons_self
    unfold accept
    split
    · exact later lastEnd
    · intro chunk member
      rcases List.mem_cons.mp member with same | behind
      · subst same
        simp only
        omega
      · have := later region.last chunk behind
        omega

theorem accept_apart (lastEnd : Int) (regions : List Region)
    (ordered : ∀ region ∈ regions, region.first ≤ region.last) :
    ChunksApart (accept lastEnd regions).chunks := by
  induction regions generalizing lastEnd with
  | nil => exact List.Pairwise.nil
  | cons region rest ih =>
    have restOrdered : ∀ other ∈ rest, other.first ≤ other.last :=
      fun other member => ordered other (List.mem_cons_of_mem _ member)
    unfold accept
    split
    · exact ih lastEnd restOrdered
    · exact List.pairwise_cons.mpr
        ⟨accept_after region.last rest restOrdered, ih region.last restOrdered⟩

theorem exists_region_of_mem_accept (lastEnd : Int) (regions : List Region) :
    ∀ chunk ∈ (accept lastEnd regions).chunks, ∃ region ∈ regions,
      chunk = { language := region.language, hostStart := region.first, hostEnd := region.last } := by
  induction regions generalizing lastEnd with
  | nil => simp [accept]
  | cons region rest ih =>
    have later : ∀ start, ∀ chunk ∈ (accept start rest).chunks, ∃ found ∈ region :: rest,
        chunk = { language := found.language, hostStart := found.first, hostEnd := found.last } := by
      intro start chunk member
      obtain ⟨found, inside, same⟩ := ih start chunk member
      exact ⟨found, List.mem_cons_of_mem region inside, same⟩
    unfold accept
    split
    · exact later lastEnd
    · intro chunk member
      rcases List.mem_cons.mp member with same | behind
      · exact ⟨region, List.mem_cons_self, same⟩
      · exact later region.last chunk behind

theorem candidates_enclosed (rules : List Rule) (names : LanguageNames) (lines : List String) :
    ∀ region ∈ ((rules.map fun rule => rule.scan names (lines.map String.toList)).flatMap
        Findings.regions).mergeSort regionOrder, region.Enclosed lines.length := by
  intro region member
  obtain ⟨findings, found, inside⟩ := List.mem_flatMap.mp (List.mem_mergeSort.mp member)
  obtain ⟨rule, _, same⟩ := List.mem_map.mp found
  subst same
  simpa using rule.scan_enclosed names (lines.map String.toList) region inside

theorem ofLines_enclosed (rules : List Rule) (names : LanguageNames) (lines : List String) :
    ∀ chunk ∈ (ofLines rules names lines).chunks, chunk.Enclosed lines.length := by
  intro chunk member
  obtain ⟨region, inside, rfl⟩ := exists_region_of_mem_accept _ _ chunk member
  have enclosed := candidates_enclosed rules names lines region inside
  exact ⟨enclosed.positive, enclosed.ordered, enclosed.below⟩

theorem ofLines_apart (rules : List Rule) (names : LanguageNames) (lines : List String) :
    ChunksApart (ofLines rules names lines).chunks :=
  accept_apart (-1) _ fun region member =>
    (candidates_enclosed rules names lines region member).ordered

theorem ofText_enclosed (rules : List Rule) (names : LanguageNames) (text : String) :
    ∀ chunk ∈ (ofText rules names text).chunks, chunk.Enclosed (Text.splitLines text).length :=
  ofLines_enclosed rules names (Text.splitLines text)

theorem ofText_apart (rules : List Rule) (names : LanguageNames) (text : String) :
    ChunksApart (ofText rules names text).chunks :=
  ofLines_apart rules names (Text.splitLines text)

/-! ### Languages -/

theorem mem_dedup (languages seen : List String) (language : String) :
    language ∈ languages.foldl
        (fun seen language => if language ∈ seen then seen else seen ++ [language]) seen ↔
      language ∈ seen ∨ language ∈ languages := by
  induction languages generalizing seen with
  | nil => simp
  | cons first rest ih =>
    rw [List.foldl_cons, ih]
    by_cases known : first ∈ seen
    · rw [if_pos known, List.mem_cons]
      constructor
      · rintro (before | behind)
        · exact Or.inl before
        · exact Or.inr (Or.inr behind)
      · rintro (before | same | behind)
        · exact Or.inl before
        · exact Or.inl (same ▸ known)
        · exact Or.inr behind
    · rw [if_neg known, List.mem_append, List.mem_singleton, List.mem_cons, or_assoc]

theorem mem_languages {extraction : Extraction} {language : String} :
    language ∈ extraction.languages ↔ ∃ chunk ∈ extraction.chunks, chunk.language = language := by
  unfold languages
  rw [mem_dedup]
  simp

theorem chunksOf_eq_nil {extraction : Extraction} {language : String} :
    extraction.chunksOf language = [] ↔ language ∉ extraction.languages := by
  rw [mem_languages, chunksOf, List.filter_eq_nil_iff]
  simp

theorem mem_chunksOf {extraction : Extraction} {language : String} {chunk : Chunk} :
    chunk ∈ extraction.chunksOf language ↔
      chunk ∈ extraction.chunks ∧ chunk.language = language := by
  simp [chunksOf]

theorem chunksOf_apart {extraction : Extraction} (apart : ChunksApart extraction.chunks)
    (language : String) : ChunksApart (extraction.chunksOf language) :=
  List.Pairwise.filter _ apart

end Extraction

end LanguageBridge
