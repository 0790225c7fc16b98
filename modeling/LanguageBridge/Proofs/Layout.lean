import LanguageBridge.Proofs.Extraction
import LanguageBridge.Proofs.Lines
import LanguageBridge.Synthetic.Layout

namespace LanguageBridge

/-! How chunks come to lie in a synthetic document: they keep their order and never meet, and
every line of the document is a host line of the chunk that holds it, or blank. -/

/-- Chunks that follow one another both in the host and in the synthetic document. -/
structure ChunksLaid (chunks : List Chunk) : Prop where
  valid : ∀ chunk ∈ chunks, chunk.hostStart ≤ chunk.hostEnd
  hostApart : ChunksApart chunks
  syntheticApart : chunks.Pairwise fun a b => a.syntheticEnd < b.syntheticStart

theorem ChunksLaid.nil : ChunksLaid [] :=
  ⟨by simp, List.Pairwise.nil, List.Pairwise.nil⟩

/-- Two chunks are the same, or one lies behind the other on both sides. -/
theorem ChunksLaid.order {chunks : List Chunk} (laid : ChunksLaid chunks) {first second : Chunk}
    (inFirst : first ∈ chunks) (inSecond : second ∈ chunks) :
    first = second ∨
      (first.hostEnd < second.hostStart ∧ first.syntheticEnd < second.syntheticStart) ∨
      (second.hostEnd < first.hostStart ∧ second.syntheticEnd < first.syntheticStart) := by
  obtain ⟨i, boundI, rfl⟩ := List.getElem_of_mem inFirst
  obtain ⟨j, boundJ, rfl⟩ := List.getElem_of_mem inSecond
  have host := List.pairwise_iff_getElem.mp laid.hostApart
  have synthetic := List.pairwise_iff_getElem.mp laid.syntheticApart
  rcases Nat.lt_trichotomy i j with less | same | more
  · exact Or.inr (Or.inl ⟨host i j boundI boundJ less, synthetic i j boundI boundJ less⟩)
  · subst same
    exact Or.inl rfl
  · exact Or.inr (Or.inr ⟨host j i boundJ boundI more, synthetic j i boundJ boundI more⟩)

/-! ### The host lines of a chunk -/

section HostLines

variable {hostLines : List String} {chunk : Chunk}

theorem linesBetween_enclosed (enclosed : chunk.Enclosed hostLines.length) :
    linesBetween hostLines chunk.hostStart chunk.hostEnd =
      (hostLines.drop chunk.hostStart.toNat).take chunk.lineCount.toNat := by
  obtain ⟨positive, ordered, below⟩ := enclosed
  have lower : lineBound hostLines.length chunk.hostStart = chunk.hostStart.toNat := by
    rw [lineBound, if_neg (by omega)]
    omega
  have upper : lineBound hostLines.length (chunk.hostEnd + 1) = (chunk.hostEnd + 1).toNat := by
    rw [lineBound, if_neg (by omega)]
    omega
  have count : (chunk.hostEnd + 1).toNat - chunk.hostStart.toNat = chunk.lineCount.toNat := by
    unfold Chunk.lineCount
    omega
  rw [linesBetween, lower, upper, count]

theorem linesBetween_length (enclosed : chunk.Enclosed hostLines.length) :
    ((linesBetween hostLines chunk.hostStart chunk.hostEnd).length : Int) = chunk.lineCount := by
  rw [linesBetween_enclosed enclosed, List.length_take, List.length_drop]
  obtain ⟨positive, ordered, below⟩ := enclosed
  unfold Chunk.lineCount
  omega

theorem linesBetween_getElem? (enclosed : chunk.Enclosed hostLines.length) {i : Nat}
    (inside : (i : Int) < chunk.lineCount) :
    (linesBetween hostLines chunk.hostStart chunk.hostEnd)[i]? =
      hostLines[chunk.hostStart.toNat + i]? := by
  rw [linesBetween_enclosed enclosed, List.getElem?_take_of_lt (by omega), List.getElem?_drop]

theorem linesBetween_congr {others : List String} (enclosed : chunk.Enclosed hostLines.length)
    (enclosedToo : chunk.Enclosed others.length)
    (agree : ∀ i : Nat, chunk.hostStart ≤ i → i ≤ chunk.hostEnd → hostLines[i]? = others[i]?) :
    linesBetween hostLines chunk.hostStart chunk.hostEnd =
      linesBetween others chunk.hostStart chunk.hostEnd := by
  apply List.ext_getElem?
  intro i
  by_cases inside : (i : Int) < chunk.lineCount
  · rw [linesBetween_getElem? enclosed inside, linesBetween_getElem? enclosedToo inside]
    have := enclosed.positive
    unfold Chunk.lineCount at inside
    exact agree _ (by omega) (by omega)
  · have first := linesBetween_length enclosed
    have second := linesBetween_length enclosedToo
    rw [List.getElem?_eq_none (by omega), List.getElem?_eq_none (by omega)]

end HostLines

def Chunk.unplaced (chunk : Chunk) : Chunk :=
  { chunk with syntheticStart := 0 }

theorem Chunk.host_of_unplaced {first second : Chunk} (same : first.unplaced = second.unplaced) :
    first.hostStart = second.hostStart ∧ first.hostEnd = second.hostEnd := by
  simp only [unplaced, Chunk.mk.injEq] at same
  exact ⟨same.2.1, same.2.2.1⟩

namespace Layout

variable {padding : Padding} {hostLines : List String}

/-- The text of a layout splits into its lines again, with an empty line behind the last. -/
theorem splitLines_text {layout : Layout}
    (unbroken : ∀ line ∈ layout.lines, Text.Unbroken line.toList) :
    Text.splitLines layout.text = layout.lines ++ [""] := by
  unfold text
  by_cases empty : layout.lines = []
  · rw [if_pos empty, empty]
    rfl
  · rw [if_neg empty]
    exact Text.splitLines_joinLines_feed empty unbroken

/-! ### Where the chunks lie -/

/-- Laying out gives chunks a place and leaves all else as it is. -/
theorem below_unplaced (padding : Padding) (hostLines : List String) (height : Nat)
    (previousEnd : Option Int) (chunks : List Chunk) :
    (below padding hostLines height previousEnd chunks).chunks.map Chunk.unplaced =
      chunks.map Chunk.unplaced := by
  induction chunks generalizing height previousEnd with
  | nil => rfl
  | cons chunk rest ih =>
    rw [below, List.map_cons, List.map_cons, ih]
    rfl

theorem below_placed {height : Nat} {previousEnd : Option Int} {chunks : List Chunk}
    {laid : Chunk} (member : laid ∈ (below padding hostLines height previousEnd chunks).chunks) :
    ∃ chunk ∈ chunks, laid.unplaced = chunk.unplaced := by
  have mapped := List.mem_map_of_mem (f := Chunk.unplaced) member
  rw [below_unplaced] at mapped
  obtain ⟨chunk, found, same⟩ := List.mem_map.mp mapped
  exact ⟨chunk, found, same.symm⟩

variable (height : Nat) (previousEnd : Option Int) {chunks : List Chunk}

theorem exists_placed (padding : Padding) (hostLines : List String) {chunk : Chunk}
    (member : chunk ∈ chunks) :
    ∃ laid ∈ (below padding hostLines height previousEnd chunks).chunks,
      laid.unplaced = chunk.unplaced := by
  have mapped := List.mem_map_of_mem (f := Chunk.unplaced) member
  rw [← below_unplaced padding hostLines height previousEnd] at mapped
  exact List.mem_map.mp mapped

theorem below_after (chunks : List Chunk) :
    ∀ laid ∈ (below padding hostLines height previousEnd chunks).chunks,
      (height : Int) ≤ laid.syntheticStart := by
  induction chunks generalizing height previousEnd with
  | nil => simp [below]
  | cons chunk rest ih =>
    intro laid member
    rw [below] at member
    rcases List.mem_cons.mp member with same | behind
    · subst same
      simp only
      omega
    · have := ih _ _ laid behind
      omega

theorem below_congr {others : List String} (chunks : List Chunk)
    (same : ∀ chunk ∈ chunks, linesBetween hostLines chunk.hostStart chunk.hostEnd =
      linesBetween others chunk.hostStart chunk.hostEnd) :
    below padding hostLines height previousEnd chunks =
      below padding others height previousEnd chunks := by
  induction chunks generalizing height previousEnd with
  | nil => rfl
  | cons chunk rest ih =>
    obtain ⟨here, further⟩ := List.forall_mem_cons.mp same
    simp only [below, here, ih _ _ further]

section Enclosed

variable (enclosed : ∀ chunk ∈ chunks, chunk.Enclosed hostLines.length)
include enclosed

theorem below_syntheticApart :
    (below padding hostLines height previousEnd chunks).chunks.Pairwise
      fun a b => a.syntheticEnd < b.syntheticStart := by
  induction chunks generalizing height previousEnd with
  | nil => exact List.Pairwise.nil
  | cons chunk rest ih =>
    obtain ⟨held, restEnclosed⟩ := List.forall_mem_cons.mp enclosed
    have body := linesBetween_length held
    rw [below]
    refine List.pairwise_cons.mpr ⟨?_, ih _ _ restEnclosed⟩
    intro laid member
    have := below_after _ _ rest laid member
    simp only [Chunk.syntheticEnd, Chunk.lineCount] at body ⊢
    omega

theorem below_laid (apart : ChunksApart chunks) :
    ChunksLaid (below padding hostLines height previousEnd chunks).chunks where
  valid := by
    intro laid member
    obtain ⟨chunk, found, same⟩ := below_placed member
    rw [(Chunk.host_of_unplaced same).1, (Chunk.host_of_unplaced same).2]
    exact (enclosed chunk found).ordered
  hostApart := by
    have mapped : (chunks.map Chunk.unplaced).Pairwise fun a b => a.hostEnd < b.hostStart :=
      List.pairwise_map.mpr apart
    rw [← below_unplaced padding hostLines height previousEnd] at mapped
    exact List.pairwise_map.mp mapped
  syntheticApart := below_syntheticApart height previousEnd enclosed

/-! ### What the lines are -/

/-- A line of the document stands in a chunk, and then it is the host line it maps to, or it
stands in none, and then it is blank. -/
theorem below_line {i : Nat} {line : String}
    (found : (below padding hostLines height previousEnd chunks).lines[i]? = some line) :
    (∃ laid ∈ (below padding hostLines height previousEnd chunks).chunks,
      laid.containsSynthetic (height + i) ∧
        hostLines[(laid.hostStart + (height + i - laid.syntheticStart)).toNat]? = some line) ∨
    ((∀ laid ∈ (below padding hostLines height previousEnd chunks).chunks,
      ¬ laid.containsSynthetic (height + i)) ∧ line = "") := by
  induction chunks generalizing height previousEnd i with
  | nil => simp [below] at found
  | cons chunk rest ih =>
    obtain ⟨held, restEnclosed⟩ := List.forall_mem_cons.mp enclosed
    have bodyLength := linesBetween_length held
    have bodyLine := fun (k : Nat) inside => linesBetween_getElem? (i := k) held inside
    obtain ⟨positive, ordered, bottom⟩ := held
    rw [below] at found ⊢
    generalize linesBetween hostLines chunk.hostStart chunk.hostEnd = body at *
    generalize padding.gap previousEnd chunk = gap at *
    simp only [List.append_assoc, List.getElem?_append, List.length_replicate] at found
    simp only [List.mem_cons, exists_eq_or_imp, forall_eq_or_imp, Chunk.containsSynthetic_iff,
      Chunk.syntheticEnd, Chunk.lineCount] at bodyLength bodyLine ih ⊢
    -- the line lies in the gap, in the body of the first chunk, or further down
    by_cases blank : i < gap
    · rw [if_pos blank, List.getElem?_replicate_of_lt blank] at found
      refine Or.inr ⟨⟨by omega, ?_⟩, (Option.some.inj found).symm⟩
      intro laid member
      have := below_after _ _ rest laid member
      omega
    rw [if_neg blank] at found
    by_cases inBody : i - gap < body.length
    · rw [if_pos inBody, bodyLine _ (by omega)] at found
      refine Or.inl (Or.inl ⟨by omega, ?_⟩)
      rw [← found]
      congr 1
      omega
    · rw [if_neg inBody] at found
      have place : ((height + gap + body.length : Nat) : Int) + ((i - gap - body.length : Nat) : Int) =
          (height : Int) + i := by omega
      have later := ih _ _ restEnclosed found
      rw [place] at later
      rcases later with ⟨laid, member, inside⟩ | ⟨outside, empty⟩
      · exact Or.inl (Or.inr ⟨laid, member, inside⟩)
      · exact Or.inr ⟨⟨by omega, outside⟩, empty⟩

theorem below_end (padding : Padding) :
    (height : Int) + (below padding hostLines height previousEnd chunks).lines.length =
      ((below padding hostLines height previousEnd chunks).chunks.getLast?.map
        fun laid => laid.syntheticEnd + 1).getD (height : Int) := by
  induction chunks generalizing height previousEnd with
  | nil => simp [below]
  | cons chunk rest ih =>
    obtain ⟨held, restEnclosed⟩ := List.forall_mem_cons.mp enclosed
    have bodyLength := linesBetween_length held
    rw [below]
    generalize linesBetween hostLines chunk.hostStart chunk.hostEnd = body at *
    generalize padding.gap previousEnd chunk = gap at *
    have later := ih (height + gap + body.length) (some chunk.hostEnd) restEnclosed
    simp only [List.length_append, List.length_replicate, List.getLast?_cons]
    cases last : (below padding hostLines (height + gap + body.length) (some chunk.hostEnd)
        rest).chunks.getLast? with
    | none =>
      rw [last] at later
      simp only [Option.map_none, Option.map_some, Option.getD_none, Option.getD_some,
        Chunk.syntheticEnd, Chunk.lineCount] at later bodyLength ⊢
      omega
    | some laid =>
      rw [last] at later
      simp only [Option.map_some, Option.getD_some] at later ⊢
      omega

theorem below_within :
    ∀ laid ∈ (below padding hostLines height previousEnd chunks).chunks,
      laid.syntheticEnd < height + (below padding hostLines height previousEnd chunks).lines.length := by
  induction chunks generalizing height previousEnd with
  | nil => simp [below]
  | cons chunk rest ih =>
    obtain ⟨held, restEnclosed⟩ := List.forall_mem_cons.mp enclosed
    have bodyLength := linesBetween_length held
    intro laid member
    rw [below] at member ⊢
    simp only [List.length_append, List.length_replicate]
    rcases List.mem_cons.mp member with same | behind
    · subst same
      simp only [Chunk.syntheticEnd, Chunk.lineCount] at bodyLength ⊢
      omega
    · have := ih _ _ restEnclosed laid behind
      omega

theorem below_unbroken (unbroken : ∀ line ∈ hostLines, Text.Unbroken line.toList) :
    ∀ line ∈ (below padding hostLines height previousEnd chunks).lines,
      Text.Unbroken line.toList := by
  intro line member
  obtain ⟨i, found⟩ := List.mem_iff_getElem?.mp member
  rcases below_line height previousEnd enclosed found with ⟨laid, _, _, hostLine⟩ | ⟨_, empty⟩
  · exact unbroken line (List.mem_of_getElem? hostLine)
  · subst empty
    exact Text.Unbroken.nil

/-! ### Places under compact padding -/

/-- How many lines the first chunks take, each with a blank line below it. -/
def spread (chunks : List Chunk) : Int :=
  chunks.foldr (fun chunk total => chunk.lineCount + 1 + total) 0

theorem below_compact {i : Nat} {laid : Chunk}
    (found : (below .compact hostLines height previousEnd chunks).chunks[i]? = some laid) :
    laid.syntheticStart = height + (if previousEnd.isSome then 1 else 0) +
      spread ((below .compact hostLines height previousEnd chunks).chunks.take i) := by
  induction chunks generalizing height previousEnd i with
  | nil => simp [below] at found
  | cons chunk rest ih =>
    obtain ⟨held, restEnclosed⟩ := List.forall_mem_cons.mp enclosed
    have bodyLength := linesBetween_length held
    have gap : (Padding.compact.gap previousEnd chunk : Int) =
        if previousEnd.isSome then 1 else 0 := by
      cases previousEnd <;> rfl
    rw [below] at found ⊢
    cases i with
    | zero =>
      cases found
      simp only [List.take_zero, spread, List.foldr_nil]
      omega
    | succ i =>
      have later := ih _ _ restEnclosed found
      rw [later]
      simp only [List.take_succ_cons, spread, List.foldr_cons, Chunk.lineCount,
        Option.isSome_some, if_true] at bodyLength ⊢
      omega

end Enclosed

end Layout

end LanguageBridge
