import LanguageBridge.Proofs.Extraction
import LanguageBridge.Proofs.Sorting

namespace LanguageBridge

/-! What becomes of the regions that the rules find. They are looked at in the order of their lines,
and only the end of the region that was accepted last is remembered. As they come in order, that is
enough to see whether a region has a line in common with any that was accepted. -/

namespace Region

/-- Two regions with a line in common. -/
def Meets (region other : Region) : Prop :=
  ∃ line, (region.first ≤ line ∧ line ≤ region.last) ∧ other.first ≤ line ∧ line ≤ other.last

def chunk (region : Region) : Chunk :=
  { language := region.language, hostStart := region.first, hostEnd := region.last }

/-- The report of a region that begins before an accepted one has ended. -/
def overlap (region : Region) (lastEnd : Int) : MalformedRegion :=
  ⟨region.marker, Extraction.overlapReason lastEnd, some region.language⟩

end Region

namespace Extraction

inductive Verdict where
  | accepted
  | overlapping (lastEnd : Int)
deriving DecidableEq, Repr

namespace Verdict

def chunk? : Region × Verdict → Option Chunk
  | (region, accepted) => some region.chunk
  | (_, overlapping _) => none

def report? : Region × Verdict → Option MalformedRegion
  | (_, accepted) => none
  | (region, overlapping lastEnd) => some (region.overlap lastEnd)

/-- The verdict that a region deserves after those before it: it is accepted unless it meets an
accepted one, and if it does, the line that is named is the last one of such a region. -/
def Right (before : List (Region × Verdict)) (region : Region) : Verdict → Prop
  | accepted => ∀ other, (other, accepted) ∈ before → ¬ other.Meets region
  | overlapping lastEnd =>
    ∃ other, (other, accepted) ∈ before ∧ other.last = lastEnd ∧ other.Meets region

end Verdict

/-- The verdicts on regions, one after the other. -/
def judge (lastEnd : Int) : List Region → List (Region × Verdict)
  | [] => []
  | region :: rest =>
    if region.first ≤ lastEnd then (region, .overlapping lastEnd) :: judge lastEnd rest
    else (region, .accepted) :: judge region.last rest

theorem accept_eq_judge (lastEnd : Int) (regions : List Region) :
    accept lastEnd regions =
      { chunks := (judge lastEnd regions).filterMap Verdict.chunk?
        malformed := (judge lastEnd regions).filterMap Verdict.report? } := by
  induction regions generalizing lastEnd with
  | nil => rfl
  | cons region rest ih =>
    rw [accept, judge]
    split <;> rw [ih] <;> rfl

theorem judge_regions (lastEnd : Int) (regions : List Region) :
    (judge lastEnd regions).map Prod.fst = regions := by
  induction regions generalizing lastEnd with
  | nil => rfl
  | cons region rest ih =>
    rw [judge]
    split <;> rw [List.map_cons, ih]

/-! ### Order -/

theorem regionOrder_iff {region other : Region} :
    regionOrder region other = true ↔
      region.first < other.first ∨ (region.first = other.first ∧ region.last ≤ other.last) := by
  simp [regionOrder]

theorem regionOrder_sortable : Sortable regionOrder where
  trans region other third := by
    simp only [regionOrder_iff]
    omega
  total region other := by
    rw [Bool.or_eq_true, regionOrder_iff, regionOrder_iff]
    omega

theorem tied_regionOrder (region : Region) :
    tied regionOrder region = fun other =>
      decide (other.first = region.first ∧ other.last = region.last) := by
  funext other
  rw [Bool.eq_iff_iff, decide_eq_true_eq, tied, Bool.and_eq_true, regionOrder_iff, regionOrder_iff]
  omega

/-- By line alone. -/
def lineOrder (report other : MalformedRegion) : Bool :=
  report.line ≤ other.line

theorem lineOrder_sortable : Sortable lineOrder where
  trans report other third := by
    simp only [lineOrder, decide_eq_true_eq]
    omega
  total report other := by
    simp only [lineOrder, Bool.or_eq_true, decide_eq_true_eq]
    omega

theorem tied_lineOrder (report : MalformedRegion) :
    tied lineOrder report = fun other => decide (other.line = report.line) := by
  funext other
  rw [Bool.eq_iff_iff]
  simp only [tied, lineOrder, Bool.and_eq_true, decide_eq_true_eq]
  omega

/-! ### The end of the last accepted region -/

/-- What is known of the regions before: none that was accepted ends below `lastEnd`, one of them ends
there unless there is none, and none of them begins below the regions that are still to come. -/
structure Foremost (before : List (Region × Verdict)) (lastEnd : Int) (regions : List Region) :
    Prop where
  bounded : ∀ other, (other, Verdict.accepted) ∈ before → other.last ≤ lastEnd
  reached : lastEnd = -1 ∨ ∃ other, (other, Verdict.accepted) ∈ before ∧ other.last = lastEnd
  earlier : ∀ other, (other, Verdict.accepted) ∈ before → ∀ region ∈ regions,
    other.first ≤ region.first

variable {before : List (Region × Verdict)} {lastEnd : Int} {region : Region}
  {regions rest : List Region} {total : Nat}

theorem Foremost.start (regions : List Region) : Foremost [] (-1) regions :=
  ⟨by simp, .inl rfl, by simp⟩

section

variable (foremost : Foremost before lastEnd (region :: rest))
include foremost

theorem Foremost.overlapping (enclosed : region.Enclosed total) (early : region.first ≤ lastEnd) :
    (Verdict.overlapping lastEnd).Right before region := by
  have positive := enclosed.positive
  have ordered := enclosed.ordered
  rcases foremost.reached with start | ⟨other, known, ends⟩
  · omega
  · have begins := foremost.earlier other known region List.mem_cons_self
    exact ⟨other, known, ends, region.first, by omega, by omega⟩

theorem Foremost.accepted (late : ¬ region.first ≤ lastEnd) :
    Verdict.accepted.Right before region := by
  rintro other known ⟨line, inOther, inRegion⟩
  have := foremost.bounded other known
  omega

theorem Foremost.pass :
    Foremost (before ++ [(region, .overlapping lastEnd)]) lastEnd rest := by
  have accepted : ∀ other,
      (other, Verdict.accepted) ∈ before ++ [(region, .overlapping lastEnd)] ↔
        (other, Verdict.accepted) ∈ before := by simp
  refine ⟨?_, ?_, ?_⟩
  · intro other known
    exact foremost.bounded other ((accepted other).mp known)
  · simpa only [accepted] using foremost.reached
  · intro other known later member
    exact foremost.earlier other ((accepted other).mp known) later (List.mem_cons_of_mem _ member)

theorem Foremost.take (enclosed : region.Enclosed total) (late : ¬ region.first ≤ lastEnd)
    (sorted : (region :: rest).Pairwise fun a b => regionOrder a b = true) :
    Foremost (before ++ [(region, .accepted)]) region.last rest := by
  have ordered := enclosed.ordered
  have accepted : ∀ other, (other, Verdict.accepted) ∈ before ++ [(region, .accepted)] ↔
      (other, Verdict.accepted) ∈ before ∨ other = region := by simp
  refine ⟨?_, .inr ⟨region, by simp, rfl⟩, ?_⟩
  · intro other known
    rcases (accepted other).mp known with old | rfl
    · have := foremost.bounded other old
      omega
    · exact Int.le_refl _
  · intro other known later member
    have behind := regionOrder_iff.mp (List.rel_of_pairwise_cons sorted member)
    rcases (accepted other).mp known with old | rfl
    · have := foremost.earlier other old region List.mem_cons_self
      omega
    · omega

theorem Foremost.step (enclosed : region.Enclosed total)
    (sorted : (region :: rest).Pairwise fun a b => regionOrder a b = true) :
    ∃ verdict next, judge lastEnd (region :: rest) = (region, verdict) :: judge next rest ∧
      verdict.Right before region ∧ Foremost (before ++ [(region, verdict)]) next rest := by
  rw [judge]
  split
  · rename_i early
    exact ⟨_, _, rfl, foremost.overlapping enclosed early, foremost.pass⟩
  · rename_i late
    exact ⟨_, _, rfl, foremost.accepted late, foremost.take enclosed late sorted⟩

end

/-- Verdicts on regions that come in order are right. -/
theorem judge_right (foremost : Foremost before lastEnd regions)
    (enclosed : ∀ region ∈ regions, region.Enclosed total)
    (sorted : regions.Pairwise fun a b => regionOrder a b = true)
    {front behind : List (Region × Verdict)} {region : Region} {verdict : Verdict}
    (judged : judge lastEnd regions = front ++ (region, verdict) :: behind) :
    verdict.Right (before ++ front) region := by
  induction regions generalizing before lastEnd front with
  | nil => simp [judge] at judged
  | cons first rest ih =>
    obtain ⟨own, next, stepped, right, later⟩ :=
      foremost.step (enclosed first List.mem_cons_self) sorted
    rw [stepped] at judged
    cases front with
    | nil =>
      cases (List.cons.inj judged).1
      rwa [List.append_nil]
    | cons entry front =>
      obtain ⟨rfl, below⟩ := List.cons.inj judged
      rw [← List.singleton_append, ← List.append_assoc]
      exact ih later (fun region member => enclosed region (List.mem_cons_of_mem first member))
        (List.Pairwise.of_cons sorted) below

/-! ### A whole text -/

/-- Each region that a rule finds gets one verdict, in the order of first and last lines, where regions
of the same lines stand as they were found. It gives one chunk with its language and lines if it meets
none that was accepted before it, and else one report at its marker. There are no other chunks, and no
other reports but those of the rules; the reports stand by line, those of the rules first. -/
theorem ofText_settles_each_region (rules : List Rule) (names : LanguageNames) (text : String) :
    let findings := rules.map fun rule => rule.scan names ((Text.splitLines text).map String.toList)
    let found := findings.flatMap Findings.regions
    let extraction := ofText rules names text
    ∃ judged : List (Region × Verdict),
      ((judged.map Prod.fst).Perm found ∧
        ((judged.map Prod.fst).Pairwise fun region other => region.first < other.first ∨
          (region.first = other.first ∧ region.last ≤ other.last)) ∧
        ∀ first last, (judged.map Prod.fst).filter (fun region =>
            region.first = first ∧ region.last = last) =
          found.filter fun region => region.first = first ∧ region.last = last) ∧
      (∀ before region verdict behind, judged = before ++ (region, verdict) :: behind →
        verdict.Right before region) ∧
      extraction.chunks = judged.filterMap Verdict.chunk? ∧
      (let reports := findings.flatMap Findings.malformed ++ judged.filterMap Verdict.report?
      extraction.malformed.Perm reports ∧
        (extraction.malformed.Pairwise fun report other => report.line ≤ other.line) ∧
        ∀ line, extraction.malformed.filter (fun report => report.line = line) =
          reports.filter fun report => report.line = line) := by
  intro findings found extraction
  let sorted := found.mergeSort regionOrder
  have inOrder := regionOrder_sortable.mergeSort_sorted found
  have parts := accept_eq_judge (-1) sorted
  have regions := judge_regions (-1) sorted
  refine ⟨judge (-1) sorted, ⟨?_, ?_, ?_⟩, ?_, congrArg chunks parts, ?_⟩
  · rw [regions]
    exact List.mergeSort_perm found regionOrder
  · rw [regions]
    exact inOrder.imp regionOrder_iff.mp
  · intro first last
    have ties := regionOrder_sortable.filter_tied_mergeSort found ⟨"", first, last, 0⟩
    rw [tied_regionOrder] at ties
    rw [regions]
    exact ties
  · intro before region verdict behind split
    simpa using judge_right (Foremost.start sorted)
      (candidates_enclosed rules names (Text.splitLines text)) inOrder split
  · intro reports
    have whole : extraction.malformed = reports.mergeSort lineOrder :=
      congrArg (fun accepted : Extraction => (findings.flatMap Findings.malformed ++
        accepted.malformed).mergeSort lineOrder) parts
    rw [whole]
    refine ⟨List.mergeSort_perm _ _, ?_, ?_⟩
    · exact (lineOrder_sortable.mergeSort_sorted reports).imp of_decide_eq_true
    · intro line
      have ties := lineOrder_sortable.filter_tied_mergeSort reports ⟨line, "", none⟩
      rw [tied_lineOrder] at ties
      exact ties

end Extraction

end LanguageBridge
