import LanguageBridge.Proofs.Region.Overlaps
import LanguageBridge.Proofs.Region.UnclosedFences
import LanguageBridge.Proofs.Store.Refinement

namespace LanguageBridge

/-! Documents that are put below one another. Where no fence and no tag is open at the end of the
upper one, the chunks of both stay as they are, and those of the lower one move down. -/

def Chunk.shift (count : Nat) (chunk : Chunk) : Chunk :=
  { chunk with hostStart := chunk.hostStart + count, hostEnd := chunk.hostEnd + count }

theorem Chunk.Enclosed.shift {chunk : Chunk} {total : Nat} (enclosed : chunk.Enclosed total)
    (count : Nat) : (chunk.shift count).Enclosed (count + total) := by
  obtain ⟨positive, ordered, below⟩ := enclosed
  constructor <;> simp only [Chunk.shift] <;> omega

/-! ### One rule -/

namespace Scanner

variable {State : Type} {scanner : Scanner State} {start : State}

/-- A machine that is back where it began reads on as if it had read nothing. -/
theorem run_append_of_back {above : List (List Char)}
    (back : scanner.stateAfter 0 start above = start) (silent : scanner.atEnd start = {})
    (shifted : ∀ count lines,
      scanner.run (0 + count) start lines = (scanner.run 0 start lines).shift count)
    (below : List (List Char)) :
    scanner.run 0 start (above ++ below) =
      scanner.run 0 start above ++ (scanner.run 0 start below).shift above.length := by
  have upper : scanner.run 0 start above = scanner.foundIn 0 start above ++ {} := by
    rw [run, back, silent]
  rw [run_append, back, shifted, upper, Findings.append_assoc, Findings.empty_append]

theorem idle (scanner : Scanner State) (start : State) {lines : List (List Char)}
    (plain : ∀ line ∈ lines, ∀ index, scanner.next index start line = start ∧
      scanner.found index start line = {}) (index : Nat) :
    scanner.stateAfter index start lines = start ∧ scanner.foundIn index start lines = {} := by
  induction lines generalizing index with
  | nil => exact ⟨rfl, rfl⟩
  | cons line rest ih =>
    obtain ⟨stays, silent⟩ := plain line List.mem_cons_self index
    rw [stateAfter, foundIn, stays, silent, Findings.empty_append]
    exact ih (fun other member => plain other (List.mem_cons_of_mem _ member)) (index + 1)

end Scanner

theorem TagRule.run_shift (rule : TagRule) (language : String) (count index : Nat)
    (state : Option Nat) (lines : List (List Char)) :
    (rule.scanner language).run (index + count) (state.map (· + count)) lines =
      ((rule.scanner language).run index state lines).shift count := by
  refine Scanner.run_shift ?_ ?_ ?_ index state lines
  · intro index state line
    cases state with
    | none =>
      simp only [Option.map_none, next_none]
      split <;> rfl
    | some opened =>
      simp only [Option.map_some, next_some]
      split
      · rfl
      · split <;> rfl
  · intro index state line
    cases state with
    | none =>
      simp only [Option.map_none, found_none]
      split <;> simp [Findings.shift, MalformedRegion.shift]
    | some opened =>
      have same : index + count - (opened + count) = index - opened := by omega
      simp only [Option.map_some, found_some, same]
      split
      · split
        · simp only [Findings.shift, Region.shift, List.map_cons, List.map_nil,
            Findings.mk.injEq, List.cons.injEq, Region.mk.injEq, and_true, true_and]
          omega
        · rfl
      · split <;> simp [Findings.shift, MalformedRegion.shift]
  · intro state
    cases state <;> simp [Findings.shift, MalformedRegion.shift]

namespace Rule

/-- No fence and no tag is open when these lines have been read. -/
def closedAfter (rule : Rule) (names : LanguageNames) (lines : List (List Char)) : Bool :=
  match rule with
  | fence => ((Fence.scanner names).stateAfter 0 none lines).isNone
  | tag rule => ((rule.reading names).stateAfter 0 none lines).isNone

/-- A line that opens nothing and is not reported either. -/
def passesOver (rule : Rule) (line : List Char) : Bool :=
  match rule with
  | fence => (Fence.opening? line).isNone
  | tag rule => !rule.opensAfter line && (rule.start.occurs line || !rule.stop.occurs line)

variable {rule : Rule} {names : LanguageNames} {above : List (List Char)}

theorem scan_append (closed : rule.closedAfter names above = true) (below : List (List Char)) :
    rule.scan names (above ++ below) =
      rule.scan names above ++ (rule.scan names below).shift above.length := by
  cases rule with
  | fence =>
    simp only [scan, Fence.scan_eq_run]
    exact Scanner.run_append_of_back (Option.isNone_iff_eq_none.mp closed) rfl
      (fun count lines => Fence.run_shift names count 0 none lines) below
  | tag rule =>
    simp only [scan, TagRule.scan_eq_run]
    exact Scanner.run_append_of_back (Option.isNone_iff_eq_none.mp closed) rfl
      (fun count lines => rule.run_shift _ count 0 none lines) below

theorem closedAfter_of_passesOver (passed : ∀ line ∈ above, rule.passesOver line = true) :
    rule.closedAfter names above = true ∧ rule.scan names above = {} := by
  cases rule with
  | fence =>
    obtain ⟨back, silent⟩ := (Fence.scanner names).idle none
      (fun line member index => ⟨by simpa [passesOver] using passed line member, rfl⟩) 0
    refine ⟨by simp [closedAfter, back], ?_⟩
    rw [scan, Fence.scan_eq_run, Scanner.run, back, silent]
    rfl
  | tag rule =>
    obtain ⟨back, silent⟩ := (rule.reading names).idle none
      (fun line member index => by
        have held := passed line member
        simp only [passesOver, Bool.and_eq_true, Bool.not_eq_true', Bool.or_eq_true] at held
        refine ⟨by simp [held.1], ?_⟩
        rw [TagRule.found_none, if_neg]
        rcases held.2 with starts | unstopped
        · simp [starts]
        · simp [unstopped]) 0
    refine ⟨by simp [closedAfter, back], ?_⟩
    rw [scan, TagRule.scan_eq_run, Scanner.run, back, silent]
    rfl

end Rule

/-! ### All rules -/

namespace Extraction

theorem accept_start {lastEnd other : Int} {regions : List Region}
    (behind : ∀ region ∈ regions, lastEnd < region.first ∧ other < region.first) :
    accept lastEnd regions = accept other regions := by
  cases regions with
  | nil => rfl
  | cons region rest =>
    have first := behind region List.mem_cons_self
    rw [accept, accept, if_neg (by omega), if_neg (by omega)]

theorem accept_append {lastEnd : Int} {first second : List Region}
    (apart : ∀ region ∈ first, ∀ other ∈ second, region.last < other.first)
    (behind : ∀ other ∈ second, lastEnd < other.first) :
    (accept lastEnd (first ++ second)).chunks =
      (accept lastEnd first).chunks ++ (accept lastEnd second).chunks := by
  induction first generalizing lastEnd with
  | nil => rfl
  | cons region rest ih =>
    have restApart := fun region member => apart region (List.mem_cons_of_mem _ member)
    have ownApart := apart region List.mem_cons_self
    rw [List.cons_append, accept, accept]
    split
    · exact ih restApart behind
    · have same : accept region.last second = accept lastEnd second :=
        accept_start fun other member => ⟨ownApart other member, behind other member⟩
      simp only [ih restApart ownApart, same, List.cons_append]

theorem accept_shift (count : Nat) (lastEnd : Int) (regions : List Region) :
    (accept (lastEnd + count) (regions.map (·.shift count))).chunks =
      (accept lastEnd regions).chunks.map (·.shift count) := by
  induction regions generalizing lastEnd with
  | nil => rfl
  | cons region rest ih =>
    rw [List.map_cons, accept, accept]
    have same : (region.shift count).first ≤ lastEnd + count ↔ region.first ≤ lastEnd := by
      simp only [Region.shift]
      omega
    by_cases early : region.first ≤ lastEnd
    · rw [if_pos early, if_pos (same.mpr early)]
      exact ih lastEnd
    · rw [if_neg early, if_neg (mt same.mp early)]
      exact congrArg (List.cons _) (ih region.last)

/-- What the rules find in some lines, rule by rule. -/
def candidates (rules : List Rule) (names : LanguageNames) (lines : List (List Char)) :
    List Region :=
  rules.flatMap fun rule => (rule.scan names lines).regions

theorem ofLines_chunks (rules : List Rule) (names : LanguageNames) (lines : List String) :
    (ofLines rules names lines).chunks =
      (accept (-1) ((candidates rules names (lines.map String.toList)).mergeSort
        regionOrder)).chunks := by
  simp only [ofLines, candidates, List.flatMap_map]

variable {rules : List Rule} {names : LanguageNames} {above : List (List Char)}

theorem enclosed_of_mem_candidates {lines : List (List Char)} {region : Region}
    (member : region ∈ candidates rules names lines) : region.Enclosed lines.length := by
  obtain ⟨rule, _, found⟩ := List.mem_flatMap.mp member
  exact rule.scan_enclosed names lines region found

theorem candidates_append (closed : ∀ rule ∈ rules, rule.closedAfter names above = true)
    (below : List (List Char)) :
    candidates rules names (above ++ below) = rules.flatMap fun rule =>
      (rule.scan names above).regions ++
        (rule.scan names below).regions.map (·.shift above.length) := by
  refine List.flatMap_congr fun rule member => ?_
  rw [rule.scan_append (closed rule member)]
  rfl

/-- The regions of two documents, sorted together, are those of the upper one and then those of the
lower one, whatever rules found them. -/
theorem sorted_candidates_append (closed : ∀ rule ∈ rules, rule.closedAfter names above = true)
    (below : List (List Char)) :
    (candidates rules names (above ++ below)).mergeSort regionOrder =
      (candidates rules names above).mergeSort regionOrder ++
        ((candidates rules names below).mergeSort regionOrder).map (·.shift above.length) := by
  let early : Region → Bool := fun region => region.last < above.length
  have isEarly : ∀ rule : Rule, ∀ region ∈ (rule.scan names above).regions,
      early region = true := by
    intro rule region found
    have := (rule.scan_enclosed names above region found).below
    simp only [early, decide_eq_true_eq]
    omega
  have isLate : ∀ rule : Rule,
      ∀ region ∈ (rule.scan names below).regions.map (·.shift above.length),
        early region = false := by
    intro rule region moved
    obtain ⟨source, found, rfl⟩ := List.mem_map.mp moved
    obtain ⟨positive, ordered, _⟩ := rule.scan_enclosed names below source found
    simp only [early, Region.shift, decide_eq_false_iff_not]
    omega
  have upper : (candidates rules names (above ++ below)).filter early =
      candidates rules names above := by
    rw [candidates_append closed, List.filter_flatMap]
    refine List.flatMap_congr fun rule _ => ?_
    rw [List.filter_append, List.filter_eq_self.mpr (isEarly rule),
      List.filter_eq_nil_iff.mpr (by simpa using isLate rule), List.append_nil]
  have lower : (candidates rules names (above ++ below)).filter (fun region => !early region) =
      (candidates rules names below).map (·.shift above.length) := by
    rw [candidates_append closed, List.filter_flatMap, candidates, List.map_flatMap]
    refine List.flatMap_congr fun rule _ => ?_
    rw [List.filter_append, List.filter_eq_nil_iff.mpr (by simpa using isEarly rule),
      List.filter_eq_self.mpr (by simpa using isLate rule), List.nil_append]
  rw [regionOrder_sortable.mergeSort_eq_append _ early, upper, lower, List.map_mergeSort]
  · intro region _ other _
    rw [Bool.eq_iff_iff, regionOrder_iff, regionOrder_iff]
    simp only [Region.shift]
    omega
  · intro region known other knownOther isEarly isLate
    have moved : other ∈ (candidates rules names below).map (·.shift above.length) := by
      rw [← lower]
      exact List.mem_filter.mpr ⟨knownOther, by simp [isLate]⟩
    obtain ⟨source, found, rfl⟩ := List.mem_map.mp moved
    have begins := (enclosed_of_mem_candidates found).positive
    have ordered := (enclosed_of_mem_candidates known).ordered
    rw [← Bool.not_eq_true, regionOrder_iff]
    simp only [early, Region.shift, decide_eq_true_eq] at isEarly ⊢
    omega

theorem ofLines_append {above : List String}
    (closed : ∀ rule ∈ rules, rule.closedAfter names (above.map String.toList) = true)
    (below : List String) :
    (ofLines rules names (above ++ below)).chunks =
      (ofLines rules names above).chunks ++
        (ofLines rules names below).chunks.map (·.shift above.length) := by
  have below_first : ∀ region ∈ ((candidates rules names (below.map String.toList)).mergeSort
      regionOrder).map (·.shift above.length), (above.length : Int) < region.first := by
    intro region moved
    obtain ⟨source, found, rfl⟩ := List.mem_map.mp moved
    have begins := (enclosed_of_mem_candidates (List.mem_mergeSort.mp found)).positive
    simp only [Region.shift]
    omega
  have sorted := sorted_candidates_append closed (below.map String.toList)
  rw [List.length_map] at sorted
  rw [ofLines_chunks, List.map_append, sorted, accept_append, ofLines_chunks, ofLines_chunks,
    ← accept_shift]
  · congr 2
    refine accept_start fun region moved => ?_
    have := below_first region moved
    omega
  · intro region found other moved
    have ends := (enclosed_of_mem_candidates (List.mem_mergeSort.mp found)).below
    rw [List.length_map] at ends
    have := below_first other moved
    omega
  · intro other moved
    have := below_first other moved
    omega

/-! ### Texts -/

theorem ofLines_chunks_eq_nil {lines : List String} (short : lines.length ≤ 1) :
    (ofLines rules names lines).chunks = [] := by
  refine List.eq_nil_iff_forall_not_mem.mpr fun chunk member => ?_
  obtain ⟨positive, ordered, below⟩ := ofLines_enclosed rules names lines chunk member
  omega

theorem ofText_joinLines {lines : List String}
    (unbroken : ∀ line ∈ lines, Text.Unbroken line.toList) :
    (ofText rules names (Text.joinLines lines)).chunks = (ofLines rules names lines).chunks := by
  by_cases empty : lines = []
  · subst empty
    rw [ofLines_chunks_eq_nil (by simp)]
    exact ofLines_chunks_eq_nil (by decide)
  · rw [ofText, Text.splitLines_joinLines empty unbroken]

theorem ofLines_below_passed {above : List String}
    (passed : ∀ rule ∈ rules, ∀ line ∈ above, rule.passesOver line.toList = true)
    (below : List String) :
    (ofLines rules names (above ++ below)).chunks =
      (ofLines rules names below).chunks.map (·.shift above.length) := by
  have each : ∀ rule ∈ rules, rule.closedAfter names (above.map String.toList) = true ∧
      rule.scan names (above.map String.toList) = {} := by
    intro rule member
    exact Rule.closedAfter_of_passesOver (by simpa using passed rule member)
  have nothing : candidates rules names (above.map String.toList) = [] := by
    refine List.flatMap_eq_nil_iff.mpr fun rule member => ?_
    rw [(each rule member).2]
  have empty : (ofLines rules names above).chunks = [] := by
    rw [ofLines_chunks, nothing, List.mergeSort_nil]
    rfl
  rw [ofLines_append (fun rule member => (each rule member).1), empty, List.nil_append]

theorem chunksOf_of_shift {moved extraction : Extraction} {count : Nat}
    (chunks : moved.chunks = extraction.chunks.map (·.shift count)) (language : String) :
    moved.chunksOf language = (extraction.chunksOf language).map (·.shift count) := by
  rw [chunksOf, chunks, List.filter_map]
  rfl

end Extraction

/-! ### Synthetic documents -/

theorem linesBetween_shift {hostLines : List String} {chunk : Chunk}
    (enclosed : chunk.Enclosed hostLines.length) (above : List String) :
    linesBetween (above ++ hostLines) (chunk.shift above.length).hostStart
        (chunk.shift above.length).hostEnd =
      linesBetween hostLines chunk.hostStart chunk.hostEnd := by
  have moved := enclosed.shift above.length
  rw [← List.length_append] at moved
  have start : (chunk.shift above.length).hostStart.toNat =
      above.length + chunk.hostStart.toNat := by
    have := enclosed.positive
    simp only [Chunk.shift]
    omega
  have count : (chunk.shift above.length).lineCount = chunk.lineCount := by
    simp only [Chunk.lineCount, Chunk.shift]
    omega
  rw [linesBetween_enclosed moved, linesBetween_enclosed enclosed, start, count,
    List.drop_length_add_append]

theorem Layout.below_shift (above : List String) {hostLines : List String} (height : Nat)
    (previousEnd : Option Int) {chunks : List Chunk}
    (enclosed : ∀ chunk ∈ chunks, chunk.Enclosed hostLines.length) :
    below .compact (above ++ hostLines) height (previousEnd.map (· + above.length))
        (chunks.map (·.shift above.length)) =
      { lines := (below .compact hostLines height previousEnd chunks).lines
        chunks := (below .compact hostLines height previousEnd chunks).chunks.map
          (·.shift above.length) } := by
  induction chunks generalizing height previousEnd with
  | nil => rfl
  | cons chunk rest ih =>
    have gap : Padding.compact.gap (previousEnd.map (· + above.length))
        (chunk.shift above.length) = Padding.compact.gap previousEnd chunk := by
      cases previousEnd <;> rfl
    have body := linesBetween_shift (enclosed chunk List.mem_cons_self) above
    have later := fun lower => ih lower (some chunk.hostEnd) fun other member =>
      enclosed other (List.mem_cons_of_mem _ member)
    rw [List.map_cons, below, below, gap, body]
    simp only [Option.map_some] at later
    simp only [Chunk.shift] at later ⊢
    rw [later]
    rfl

namespace Store

theorem openHost_text (store : Store) (uri text : String) (languageId : Option String)
    (language : String) :
    ((store.openHost uri text languageId).get? uri language).map Document.text =
      if language ∈ (store.extract text languageId).languages then
        some (Layout.ofChunks store.padding (Text.splitLines text)
          ((store.extract text languageId).chunksOf language)).text
      else none := by
  have documents : (store.openHost uri text languageId).get? uri language =
      (store.openedHost uri text languageId).documents.get? language := by
    simp only [get?, openHost, Table.get?_put, if_true, Option.bind_some]
    rfl
  rw [documents]
  by_cases known : language ∈ (store.extract text languageId).languages
  · obtain ⟨document, found, sameText, _⟩ :=
      (store.bareHost text languageId).rebuildAll_laid store.padding uri known
    rw [if_pos known, openedHost, found, Option.map_some, sameText]
    rfl
  · rw [if_neg known, openedHost, Host.rebuildAll_other known]
    rfl

end Store

namespace Extraction

variable {rules : List Rule} {names : LanguageNames}

theorem compact_text_below_passed {above below : List String}
    (unbroken : ∀ line ∈ above ++ below, Text.Unbroken line.toList)
    (moved : (ofText rules names (Text.joinLines (above ++ below))).chunks =
      (ofText rules names (Text.joinLines below)).chunks.map (·.shift above.length))
    (language : String) :
    (Layout.ofChunks .compact (Text.splitLines (Text.joinLines (above ++ below)))
        ((ofText rules names (Text.joinLines (above ++ below))).chunksOf language)).text =
      (Layout.ofChunks .compact (Text.splitLines (Text.joinLines below))
        ((ofText rules names (Text.joinLines below)).chunksOf language)).text := by
  rw [chunksOf_of_shift moved]
  by_cases empty : below = []
  · -- a text of one line has no chunk, and nothing is laid out
    subst empty
    have none : (ofText rules names (Text.joinLines [])).chunks = [] :=
      ofLines_chunks_eq_nil (by decide)
    rw [chunksOf, none]
    rfl
  · have unbrokenBelow : ∀ line ∈ below, Text.Unbroken line.toList :=
      fun line member => unbroken line (List.mem_append_right _ member)
    have enclosed : ∀ chunk ∈ (ofText rules names (Text.joinLines below)).chunksOf language,
        chunk.Enclosed below.length := by
      intro chunk member
      have held := ofText_enclosed rules names _ chunk (mem_chunksOf.mp member).1
      rwa [Text.splitLines_joinLines empty unbrokenBelow] at held
    rw [Text.splitLines_joinLines (by simp [empty]) unbroken,
      Text.splitLines_joinLines empty unbrokenBelow]
    have laid := Layout.below_shift above 0 none enclosed
    rw [Option.map_none] at laid
    rw [Layout.ofChunks, laid]
    rfl

/-- The chunks of two documents, one below the other: where no rule has anything open between them,
they are those of the upper one and, moved down, those of the lower one. So lines that no rule looks at
move the chunks below them, and the compact synthetic documents are the same with and without them. -/
theorem ofText_chunks_append (rules : List Rule) (names : LanguageNames)
    {above below : List String} (unbroken : ∀ line ∈ above ++ below, Text.Unbroken line.toList) :
    let whole := Text.joinLines (above ++ below)
    let lower := Text.joinLines below
    ((∀ rule ∈ rules, rule.closedAfter names (above.map String.toList) = true) →
      (ofText rules names whole).chunks =
        (ofText rules names (Text.joinLines above)).chunks ++
          (ofText rules names lower).chunks.map (·.shift above.length)) ∧
    ((∀ rule ∈ rules, ∀ line ∈ above, rule.passesOver line.toList = true) →
      (ofText rules names whole).chunks =
        (ofText rules names lower).chunks.map (·.shift above.length) ∧
      (∀ language,
        (Layout.ofChunks .compact (Text.splitLines whole)
          ((ofText rules names whole).chunksOf language)).text =
        (Layout.ofChunks .compact (Text.splitLines lower)
          ((ofText rules names lower).chunksOf language)).text) ∧
      ∀ (store : Store) (languageId : Option String), store.padding = .compact →
        store.names = names → store.rulesFor languageId = rules → ∀ uri language,
          ((store.openHost uri whole languageId).get? uri language).map Document.text =
            ((store.openHost uri lower languageId).get? uri language).map Document.text) := by
  intro whole lower
  have inWhole : (ofText rules names whole).chunks = (ofLines rules names (above ++ below)).chunks :=
    ofText_joinLines unbroken
  have inUpper : (ofText rules names (Text.joinLines above)).chunks =
      (ofLines rules names above).chunks :=
    ofText_joinLines fun line member => unbroken line (List.mem_append_left _ member)
  have inLower : (ofText rules names lower).chunks = (ofLines rules names below).chunks :=
    ofText_joinLines fun line member => unbroken line (List.mem_append_right _ member)
  constructor
  · intro closed
    rw [inWhole, inUpper, inLower]
    exact ofLines_append closed below
  · intro passed
    have moved : (ofText rules names whole).chunks =
        (ofText rules names lower).chunks.map (·.shift above.length) := by
      rw [inWhole, inLower]
      exact ofLines_below_passed passed below
    have sameTexts := compact_text_below_passed unbroken moved
    refine ⟨moved, sameTexts, ?_⟩
    rintro store languageId compact rfl rfl uri language
    have sameLanguages : language ∈ (store.extract whole languageId).languages ↔
        language ∈ (store.extract lower languageId).languages := by
      rw [← not_iff_not, ← chunksOf_eq_nil, ← chunksOf_eq_nil, Store.extract,
        chunksOf_of_shift moved, List.map_eq_nil_iff]
      rfl
    rw [Store.openHost_text, Store.openHost_text, compact]
    simp only [sameLanguages]
    congr 2
    exact sameTexts language

/-- A fence and an element on one line above an element, and two plain lines above a fence. -/
theorem ofText_chunks_append_of_mixed_rules :
    let rules : List Rule := [.fence, .tag .script]
    let upper := ["```py", "x", "```", "<script></script>"]
    let lower := ["<script>", "y", "</script>"]
    (∀ rule ∈ rules, rule.closedAfter {} (upper.map String.toList) = true) ∧
    (ofText rules {} (Text.joinLines (upper ++ lower))).chunks =
      [⟨"py", 1, 1, 0⟩, ⟨"javascript", 5, 5, 0⟩] ∧
    (∀ rule ∈ rules, ∀ line ∈ ["# title", ""], rule.passesOver line.toList = true) ∧
    (ofText rules {} (Text.joinLines (["# title", ""] ++ upper))).chunks =
      [⟨"py", 3, 3, 0⟩] := by
  intro rules upper lower
  have unbroken : ∀ line ∈ upper ++ lower ++ ["# title", ""], Text.Unbroken line.toList := by
    intro line member
    exact ⟨by revert line; decide, by revert line; decide⟩
  have closed : ∀ rule ∈ rules, rule.closedAfter {} (upper.map String.toList) = true := by
    decide +kernel
  have passed : ∀ rule ∈ rules, ∀ line ∈ ["# title", ""], rule.passesOver line.toList = true := by
    decide +kernel
  have inUpper : (ofText rules {} (Text.joinLines upper)).chunks = [⟨"py", 1, 1, 0⟩] := by
    have found : candidates rules {} (upper.map String.toList) = [⟨"py", 1, 1, 0⟩] := by
      decide +kernel
    rw [ofText_joinLines fun line member => unbroken line (by simp [member]), ofLines_chunks, found,
      List.mergeSort_singleton]
    rfl
  have inLower : (ofText rules {} (Text.joinLines lower)).chunks = [⟨"javascript", 1, 1, 0⟩] := by
    have found : candidates rules {} (lower.map String.toList) = [⟨"javascript", 1, 1, 0⟩] := by
      decide +kernel
    rw [ofText_joinLines fun line member => unbroken line (by simp [member]), ofLines_chunks, found,
      List.mergeSort_singleton]
    rfl
  refine ⟨closed, ?_, passed, ?_⟩
  · rw [(ofText_chunks_append rules {} fun line member =>
      unbroken line (List.mem_append_left _ member)).1 closed, inUpper, inLower]
    rfl
  · rw [((ofText_chunks_append rules {} fun line member =>
      unbroken line (by revert line; decide)).2 passed).1, inUpper]
    rfl

end Extraction

end LanguageBridge
