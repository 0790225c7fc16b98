import LanguageBridge.Proofs.Region.Scanner

namespace LanguageBridge

/-! What becomes of the elements that a tag rule opens. Each gives a region, or is empty, or is
reported; a region lies between two lines with tags and has none itself. -/

def TagPattern.StandsAt (pattern : TagPattern) (lines : List (List Char)) (index : Nat) : Prop :=
  ∃ line, lines[index]? = some line ∧ pattern.occurs line = true

theorem TagPattern.standsAt_iff {pattern : TagPattern} {lines : List (List Char)} {index : Nat}
    {line : List Char} (here : lines[index]? = some line) :
    pattern.StandsAt lines index ↔ pattern.occurs line = true := by
  simp [StandsAt, here]

namespace TagRule

section

variable (rule : TagRule) (lines : List (List Char)) (language : String)

def PlainAt (index : Nat) : Prop :=
  ¬ rule.start.StandsAt lines index ∧ ¬ rule.stop.StandsAt lines index

/-- The element that is open when the reading comes to line `index`. -/
structure OpenSince (opened index : Nat) : Prop where
  passed : opened < index
  starts : rule.start.StandsAt lines opened
  plain : ∀ k, opened < k → k < index → rule.PlainAt lines k

/-- A region between a line with an opening tag and a line with a closing tag, with no tag in it. -/
structure Encloses (region : Region) (opened closed : Nat) : Prop where
  region : region = ⟨language, opened + 1, (closed : Int) - 1, opened⟩
  long : opened + 1 < closed
  starts : rule.start.StandsAt lines opened
  stops : rule.stop.StandsAt lines closed
  plain : ∀ k, opened < k → k < closed → rule.PlainAt lines k

end

variable {rule : TagRule} {lines : List (List Char)} {language : String} {index opened : Nat}
  {state : Option Nat} {line : List Char}

/-! ### One line -/

theorem of_next_eq_some (now : (rule.scanner language).next index state line = some opened) :
    (opened = index ∧ rule.start.occurs line = true ∧
        ∀ before ∈ state, rule.stop.occurs line = false) ∨
      (state = some opened ∧ rule.start.occurs line = false ∧ rule.stop.occurs line = false) := by
  cases state with
  | none =>
    rw [next_none] at now
    split at now
    · rename_i opens
      cases now
      exact .inl ⟨rfl, starts_of_opensAfter opens, by simp⟩
    · contradiction
  | some before =>
    rw [next_some] at now
    split at now
    · contradiction
    · rename_i unstopped
      split at now <;> rename_i started <;> cases now
      · exact .inl ⟨rfl, started, fun _ _ => by simpa using unstopped⟩
      · exact .inr ⟨rfl, by simpa using started, by simpa using unstopped⟩

theorem of_mem_found_regions {region : Region}
    (member : region ∈ ((rule.scanner language).found index state line).regions) :
    ∃ opened, state = some opened ∧ 1 < index - opened ∧
      region = ⟨language, opened + 1, (index : Int) - 1, opened⟩ ∧ rule.stop.occurs line = true ∧
      (rule.scanner language).next index state line = none := by
  cases state with
  | none =>
    rw [found_none] at member
    split at member <;> simp at member
  | some opened =>
    rw [found_some] at member
    split at member
    · rename_i stops
      split at member
      · rename_i long
        exact ⟨opened, rfl, long, List.mem_singleton.mp member, stops, by simp [stops]⟩
      · simp at member
    · split at member <;> simp at member

theorem found_regions_pairwise {Related : Region → Region → Prop} :
    ((rule.scanner language).found index state line).regions.Pairwise Related := by
  cases state with
  | none =>
    rw [found_none]
    split <;> exact List.Pairwise.nil
  | some opened =>
    rw [found_some]
    split
    · split
      · exact List.pairwise_singleton _ _
      · exact List.Pairwise.nil
    · split <;> exact List.Pairwise.nil

theorem of_mem_found_malformed {entry : MalformedRegion}
    (member : entry ∈ ((rule.scanner language).found index state line).malformed) :
    (state = none ∧ entry = ⟨index, "closing tag without opening tag", some language⟩ ∧
        rule.stop.occurs line = true ∧ rule.start.occurs line = false) ∨
      ∃ opened, state = some opened ∧ entry = ⟨opened, "nested opening tag", some language⟩ := by
  cases state with
  | none =>
    rw [found_none] at member
    split at member
    · rename_i held
      simp only [Bool.and_eq_true, Bool.not_eq_true'] at held
      exact .inl ⟨rfl, List.mem_singleton.mp member, held.1, held.2⟩
    · simp at member
  | some opened =>
    rw [found_some] at member
    split at member
    · split at member <;> simp at member
    · split at member
      · exact .inr ⟨opened, rfl, List.mem_singleton.mp member⟩
      · simp at member

theorem atEnd_regions : ((rule.scanner language).atEnd state).regions = [] := by
  cases state <;> rfl

theorem mem_atEnd_malformed {entry : MalformedRegion} :
    entry ∈ ((rule.scanner language).atEnd state).malformed ↔
      ∃ opened, state = some opened ∧ entry = ⟨opened, "unclosed tag", some language⟩ := by
  cases state <;> simp

theorem OpenSince.next (here : lines[index]? = some line)
    (held : ∀ opened ∈ state, rule.OpenSince lines opened index) :
    ∀ opened ∈ (rule.scanner language).next index state line,
      rule.OpenSince lines opened (index + 1) := by
  intro opened now
  obtain ⟨rfl, starts, -⟩ | ⟨rfl, unstarted, unstopped⟩ := of_next_eq_some now
  · exact ⟨Nat.lt_succ_self _, (TagPattern.standsAt_iff here).mpr starts,
      fun k below above => by omega⟩
  · obtain ⟨passed, starts, plain⟩ := held opened rfl
    refine ⟨by omega, starts, fun k below above => ?_⟩
    obtain earlier | rfl := Nat.lt_succ_iff_lt_or_eq.mp above
    · exact plain k below earlier
    · simp [PlainAt, TagPattern.standsAt_iff here, unstarted, unstopped]

/-! ### Regions and reports -/

theorem openSince_stateAfter {front rest : List (List Char)} (split : lines = front ++ rest) :
    ∀ opened ∈ (rule.scanner language).stateAfter 0 none front,
      rule.OpenSince lines opened front.length := by
  have held : ∀ opened ∈ (rule.scanner language).stateAfter 0 none front,
      rule.OpenSince lines opened (0 + front.length) :=
    Scanner.invariant (fun index state => ∀ opened ∈ state, rule.OpenSince lines opened index)
      (fun _ _ _ here held => OpenSince.next here held) front split (by simp)
  rwa [Nat.zero_add] at held

theorem mem_regions_scan {names : LanguageNames} {region : Region}
    (member : region ∈ (rule.scan names lines).regions) :
    ∃ opened closed,
      rule.Encloses lines (names.resolve rule.language.toList) region opened closed := by
  rw [scan_eq_run, Scanner.run, Findings.regions_append, atEnd_regions, List.append_nil] at member
  obtain ⟨front, line, rest, split, found⟩ := Scanner.exists_line_of_mem_foundIn
    Findings.regions rfl Findings.regions_append member
  obtain ⟨opened, since, long, same, stops, -⟩ := of_mem_found_regions found
  obtain ⟨passed, starts, plain⟩ := openSince_stateAfter split opened since
  have here : lines[front.length]? = some line := by simp [split]
  rw [Nat.zero_add] at same long
  exact ⟨opened, front.length, same, by omega, starts,
    (TagPattern.standsAt_iff here).mpr stops, plain⟩

theorem mem_malformed_foundIn {entry : MalformedRegion}
    (member : entry ∈ ((rule.scanner language).foundIn 0 none lines).malformed) :
    (∃ index : Nat, entry = ⟨index, "closing tag without opening tag", some language⟩ ∧
        ¬ rule.start.StandsAt lines index) ∨
      ∃ opened : Nat, entry = ⟨opened, "nested opening tag", some language⟩ := by
  obtain ⟨front, line, rest, split, found⟩ := Scanner.exists_line_of_mem_foundIn
    Findings.malformed rfl Findings.malformed_append member
  have here : lines[front.length]? = some line := by simp [split]
  obtain ⟨-, same, -, unstarted⟩ | ⟨opened, -, same⟩ := of_mem_found_malformed found
  · refine .inl ⟨front.length, by rw [same, Nat.zero_add], ?_⟩
    simp [TagPattern.standsAt_iff here, unstarted]
  · exact .inr ⟨opened, same⟩

/-! ### Order -/

theorem getD_next (rule : TagRule) (language : String) (line : List Char)
    (passed : ∀ opened ∈ state, opened < index) :
    state.getD index ≤ ((rule.scanner language).next index state line).getD (index + 1) ∧
      ∀ opened ∈ (rule.scanner language).next index state line, opened < index + 1 := by
  have early : state.getD index ≤ index := by
    cases state with
    | none => exact Nat.le_refl index
    | some opened => exact Nat.le_of_lt (passed opened rfl)
  cases now : (rule.scanner language).next index state line with
  | none => exact ⟨Nat.le_succ_of_le early, by simp⟩
  | some opened =>
    obtain ⟨rfl, -⟩ | ⟨rfl, -⟩ := of_next_eq_some now
    · exact ⟨early, by simp⟩
    · exact ⟨Nat.le_refl _, fun before same => Nat.lt_succ_of_lt (passed before same)⟩

/-- All that comes later is about the element that is open, or about lines below. -/
theorem run_below (rule : TagRule) (language : String)
    (passed : ∀ opened ∈ state, opened < index) (rest : List (List Char)) :
    (∀ region ∈ ((rule.scanner language).run index state rest).regions,
        region.first = region.marker + 1 ∧ (state.getD index : Int) ≤ region.marker) ∧
      ∀ entry ∈ ((rule.scanner language).run index state rest).malformed,
        (state.getD index : Int) ≤ entry.line := by
  induction rest generalizing index state with
  | nil => cases state <;> simp [Scanner.run, Scanner.foundIn, Scanner.stateAfter]
  | cons line rest ih =>
    obtain ⟨less, later⟩ := getD_next rule language line passed
    obtain ⟨regions, entries⟩ := ih later
    rw [Scanner.run_cons]
    constructor
    · intro region member
      rcases List.mem_append.mp member with found | behind
      · obtain ⟨opened, rfl, -, rfl, -⟩ := of_mem_found_regions found
        simp
      · obtain ⟨first, below⟩ := regions region behind
        exact ⟨first, by omega⟩
    · intro entry member
      rcases List.mem_append.mp member with found | behind
      · obtain ⟨rfl, rfl, -⟩ | ⟨opened, rfl, rfl⟩ := of_mem_found_malformed found <;> simp
      · have below := entries entry behind
        omega

theorem run_regions_apart (rule : TagRule) (language : String)
    (passed : ∀ opened ∈ state, opened < index) (rest : List (List Char)) :
    ((rule.scanner language).run index state rest).regions.Pairwise
      fun a b => a.last < b.first := by
  induction rest generalizing index state with
  | nil =>
    rw [Scanner.run, Findings.regions_append, atEnd_regions]
    exact List.Pairwise.nil
  | cons line rest ih =>
    rw [Scanner.run_cons, Findings.regions_append]
    refine List.pairwise_append.mpr ⟨found_regions_pairwise,
      ih (getD_next rule language line passed).2, fun region found other behind => ?_⟩
    obtain ⟨opened, rfl, -, rfl, -, shut⟩ := of_mem_found_regions found
    rw [shut] at behind
    obtain ⟨first, below⟩ := (run_below rule language (by simp) rest).1 other behind
    simp only [Option.getD_none] at below ⊢
    omega

/-! ### The account of an element -/

/-- How many regions and reports there are about the element that a line opens. -/
def about (findings : Findings) (opened : Nat) : Nat :=
  findings.regions.countP (fun region => region.marker = (opened : Int)) +
    findings.malformed.countP fun entry => entry.line = (opened : Int)

theorem about_append (first second : Findings) (opened : Nat) :
    about (first ++ second) opened = about first opened + about second opened := by
  simp only [about, Findings.regions_append, Findings.malformed_append, List.countP_append]
  omega

theorem about_eq_zero {findings : Findings}
    (regions : ∀ region ∈ findings.regions, region.marker ≠ opened)
    (entries : ∀ entry ∈ findings.malformed, entry.line ≠ opened) :
    about findings opened = 0 := by
  rw [about, List.countP_eq_zero.mpr fun region member => by simpa using regions region member,
    List.countP_eq_zero.mpr fun entry member => by simpa using entries entry member]

theorem about_run_below (passed : ∀ before ∈ state, before < index)
    (above : opened < state.getD index) (rest : List (List Char)) :
    about ((rule.scanner language).run index state rest) opened = 0 := by
  obtain ⟨regions, entries⟩ := run_below rule language passed rest
  refine about_eq_zero (fun region member => ?_) fun entry member => ?_
  · have below := (regions region member).2
    omega
  · have below := entries entry member
    omega

/-- An element that is open gives one region or report, unless it was opened in the line before and
is closed at once. -/
theorem about_run_open (rule : TagRule) (language : String) (passed : opened < index)
    (rest : List (List Char)) :
    about ((rule.scanner language).run index (some opened) rest) opened +
      (if index = opened + 1 ∧ rest.head?.any rule.stop.occurs = true then 1 else 0) = 1 := by
  induction rest generalizing index with
  | nil => simp [Scanner.run, Scanner.foundIn, Scanner.stateAfter, about]
  | cons line rest ih =>
    rw [Scanner.run_cons, about_append, found_some, next_some, List.head?_cons, Option.any_some]
    by_cases stops : rule.stop.occurs line = true
    · have gone : about ((rule.scanner language).run (index + 1) none rest) opened = 0 :=
        about_run_below (by simp) (by simp only [Option.getD_none]; omega) rest
      rw [if_pos stops, if_pos stops, gone]
      by_cases long : 1 < index - opened
      · rw [if_pos long, if_neg (by omega)]
        simp [about]
      · rw [if_neg long, if_pos ⟨by omega, stops⟩]
        simp [about]
    · have unended : ¬ (index = opened + 1 ∧ rule.stop.occurs line = true) :=
        fun held => stops held.2
      rw [if_neg stops, if_neg stops, if_neg unended]
      by_cases starts : rule.start.occurs line = true
      · have gone : about ((rule.scanner language).run (index + 1) (some index) rest) opened = 0 :=
          about_run_below (by simp) passed rest
        rw [if_pos starts, if_pos starts, gone]
        simp [about]
      · have kept := ih (Nat.lt_succ_of_lt passed)
        rw [if_neg (fun held => by omega)] at kept
        rw [if_neg starts, if_neg starts]
        simpa [about] using kept

theorem about_foundIn_above (rule : TagRule) (language : String) (front : List (List Char)) :
    about ((rule.scanner language).foundIn 0 none front) front.length = 0 := by
  refine about_eq_zero (fun region member => ?_) fun entry member => ?_
  · obtain ⟨before, line, rest, split, found⟩ := Scanner.exists_line_of_mem_foundIn
      Findings.regions rfl Findings.regions_append member
    obtain ⟨opened, since, long, rfl, -⟩ := of_mem_found_regions found
    have above : before.length < front.length := by simp [split]
    simp only
    omega
  · obtain ⟨before, line, rest, split, found⟩ := Scanner.exists_line_of_mem_foundIn
      Findings.malformed rfl Findings.malformed_append member
    have above : before.length < front.length := by simp [split]
    obtain ⟨-, rfl, -⟩ | ⟨opened, since, rfl⟩ := of_mem_found_malformed found
    · simp only
      omega
    · have passed := (openSince_stateAfter split opened since).passed
      simp only
      omega

theorem about_found_opening (passed : ∀ before ∈ state, before < index)
    (opens : (rule.scanner language).next index state line = some index) :
    about ((rule.scanner language).found index state line) index = 0 := by
  refine about_eq_zero (fun region member => ?_) fun entry member => ?_
  · obtain ⟨-, -, -, -, -, shut⟩ := of_mem_found_regions member
    simp [shut] at opens
  · obtain ⟨unopened, -, -, unstarted⟩ | ⟨opened, since, rfl⟩ := of_mem_found_malformed member
    · obtain ⟨-, starts, -⟩ | ⟨since, -⟩ := of_next_eq_some opens
      · simp [unstarted] at starts
      · simp [unopened] at since
    · have before := passed opened since
      simp only
      omega

/-! ### A reading, line by line -/

/-- The machine behind a rule, with the language that the rule stands for. -/
abbrev reading (rule : TagRule) (names : LanguageNames) : Scanner (Option Nat) :=
  rule.scanner (names.resolve rule.language.toList)

/-- The line since which an element is open when so many lines have been read. -/
def openedAfter (rule : TagRule) (names : LanguageNames) (lines : List (List Char))
    (count : Nat) : Option Nat :=
  (rule.reading names).stateAfter 0 none (lines.take count)

variable {names : LanguageNames}

theorem openedAfter_eq_some_iff {count : Nat} :
    rule.openedAfter names lines count = some opened ↔
      ⟨opened, "unclosed tag", some (names.resolve rule.language.toList)⟩ ∈
        (rule.scan names (lines.take count)).malformed := by
  rw [scan_eq_run, Scanner.run, Findings.malformed_append, List.mem_append, mem_atEnd_malformed]
  constructor
  · exact fun since => .inr ⟨opened, since, rfl⟩
  · rintro (found | ⟨before, still, same⟩)
    · obtain ⟨index, same, -⟩ | ⟨before, same⟩ := mem_malformed_foundIn found <;> simp at same
    · obtain rfl := Int.ofNat.inj (congrArg MalformedRegion.line same)
      exact still

theorem openedAfter_succ (here : lines[index]? = some line) :
    rule.openedAfter names lines (index + 1) =
      (rule.reading names).next index (rule.openedAfter names lines index) line := by
  have inside : index < lines.length := (List.getElem?_eq_some_iff.mp here).1
  rw [openedAfter, List.take_add_one, here, Scanner.stateAfter_append, Nat.zero_add,
    List.length_take_of_le (Nat.le_of_lt inside)]
  rfl

theorem passed_of_openedAfter {count : Nat} :
    ∀ opened ∈ rule.openedAfter names lines count, opened < count ∧ opened < lines.length := by
  intro opened since
  have passed := (openSince_stateAfter (List.append_nil _).symm opened since).passed
  rw [List.length_take] at passed
  omega

theorem scan_cut (here : lines[index]? = some line) :
    rule.scan names lines = (rule.reading names).foundIn 0 none (lines.take index) ++
      ((rule.reading names).found index (rule.openedAfter names lines index) line ++
        (rule.reading names).run (index + 1) (rule.openedAfter names lines (index + 1))
          (lines.drop (index + 1))) := by
  obtain ⟨inside, rfl⟩ := List.getElem?_eq_some_iff.mp here
  have cut := (rule.reading names).run_append 0 none (lines.take index) (lines.drop index)
  rw [List.take_append_drop, Nat.zero_add, List.length_take_of_le (Nat.le_of_lt inside),
    List.drop_eq_getElem_cons inside, Scanner.run_cons] at cut
  rw [scan_eq_run, openedAfter_succ here]
  exact cut

/-- At a line that opens an element there is an opening tag. -/
theorem exists_line_of_entered (enters : rule.openedAfter names lines (index + 1) = some index) :
    ∃ line, lines[index]? = some line ∧ rule.start.occurs line = true := by
  have here := List.getElem?_eq_getElem (passed_of_openedAfter index enters).2
  rw [openedAfter_succ here] at enters
  obtain ⟨-, starts, -⟩ | ⟨since, -⟩ := of_next_eq_some enters
  · exact ⟨_, here, starts⟩
  · exact absurd (passed_of_openedAfter index since).1 (Nat.lt_irrefl index)

theorem about_scan (enters : rule.openedAfter names lines (index + 1) = some index) :
    about (rule.scan names lines) index +
      (if (lines[index + 1]?).any rule.stop.occurs = true then 1 else 0) = 1 := by
  obtain ⟨line, here, -⟩ := exists_line_of_entered enters
  have inside : index < lines.length := (List.getElem?_eq_some_iff.mp here).1
  have above : about ((rule.reading names).foundIn 0 none (lines.take index)) index = 0 := by
    have gone := about_foundIn_above rule (names.resolve rule.language.toList) (lines.take index)
    rwa [List.length_take_of_le (Nat.le_of_lt inside)] at gone
  have now : about ((rule.reading names).found index (rule.openedAfter names lines index) line)
      index = 0 :=
    about_found_opening (fun opened since => (passed_of_openedAfter opened since).1)
      ((openedAfter_succ here).symm.trans enters)
  have settled := about_run_open rule (names.resolve rule.language.toList)
    (Nat.lt_succ_self index) (lines.drop (index + 1))
  rw [scan_cut here, about_append, about_append, above, now, enters]
  simpa using settled

theorem mem_malformed_scan {entry : MalformedRegion}
    (member : entry ∈ (rule.scan names lines).malformed) :
    (∃ index : Nat, ¬ rule.start.StandsAt lines index ∧ entry =
        ⟨index, "closing tag without opening tag", some (names.resolve rule.language.toList)⟩) ∨
      (∃ opened : Nat, entry =
        ⟨opened, "nested opening tag", some (names.resolve rule.language.toList)⟩) ∨
      ∃ opened : Nat, entry = ⟨opened, "unclosed tag", some (names.resolve rule.language.toList)⟩ := by
  rw [scan_eq_run, Scanner.run, Findings.malformed_append] at member
  rcases List.mem_append.mp member with found | left
  · obtain ⟨index, same, unstarted⟩ | nested := mem_malformed_foundIn found
    · exact .inl ⟨index, unstarted, same⟩
    · exact .inr (.inl nested)
  · obtain ⟨opened, -, same⟩ := mem_atEnd_malformed.mp left
    exact .inr (.inr ⟨opened, same⟩)

theorem reason_of_mem_dropLast {entry : MalformedRegion}
    (member : entry ∈ (rule.scan names lines).malformed.dropLast) :
    entry.reason ≠ "unclosed tag" := by
  have before : entry ∈ ((rule.reading names).foundIn 0 none lines).malformed := by
    rw [scan_eq_run, Scanner.run, Findings.malformed_append] at member
    cases still : (rule.reading names).stateAfter 0 none lines with
    | none =>
      rw [still, atEnd_none, List.append_nil] at member
      exact List.dropLast_subset _ member
    | some opened =>
      rw [still, atEnd_some, List.dropLast_concat] at member
      exact member
  obtain ⟨index, rfl, -⟩ | ⟨opened, rfl⟩ := mem_malformed_foundIn before <;> simp

/-- A tag region lies between a line with an opening tag and a line with a closing tag, and no line of
it has either. An element is open after some lines exactly if a document that ends there is reported
for it. Each line at which one is opened marks one region, or is followed at once by the line that
closes it, or is the line of one report, that of a nested or of an unclosed tag. Only the last report
may be one of an unclosed tag. Regions follow one another. -/
theorem scan_settles_each_opening (rule : TagRule) (names : LanguageNames)
    (lines : List (List Char)) :
    let findings := rule.scan names lines
    let language := names.resolve rule.language.toList
    (∀ region ∈ findings.regions, ∃ opened closed : Nat,
      region = ⟨language, opened + 1, (closed : Int) - 1, opened⟩ ∧ opened + 1 < closed ∧
      rule.start.StandsAt lines opened ∧ rule.stop.StandsAt lines closed ∧
      ∀ k, opened < k → k < closed →
        ¬ rule.start.StandsAt lines k ∧ ¬ rule.stop.StandsAt lines k) ∧
    (∀ count opened : Nat, rule.openedAfter names lines count = some opened ↔
      ⟨opened, "unclosed tag", some language⟩ ∈ (rule.scan names (lines.take count)).malformed) ∧
    (∀ index : Nat, rule.openedAfter names lines (index + 1) = some index →
      findings.regions.countP (fun region => region.marker = (index : Int)) +
          findings.malformed.countP (fun entry => entry.line = (index : Int)) +
          (if (lines[index + 1]?).any rule.stop.occurs = true then 1 else 0) = 1 ∧
        ∀ entry ∈ findings.malformed, entry.line = index →
          entry = ⟨index, "nested opening tag", some language⟩ ∨
            entry = ⟨index, "unclosed tag", some language⟩) ∧
    (∀ entry ∈ findings.malformed.dropLast, entry.reason ≠ "unclosed tag") ∧
    findings.regions.Pairwise fun a b => a.last < b.first := by
  intro findings language
  refine ⟨fun region member => ?_, fun count opened => openedAfter_eq_some_iff,
    fun index enters => ⟨about_scan enters, ?_⟩,
    fun entry member => reason_of_mem_dropLast member, ?_⟩
  · obtain ⟨opened, closed, enclosed⟩ := mem_regions_scan member
    exact ⟨opened, closed, enclosed.region, enclosed.long, enclosed.starts, enclosed.stops,
      enclosed.plain⟩
  · intro entry member same
    obtain ⟨line, here, starts⟩ := exists_line_of_entered enters
    obtain ⟨stray, unstarted, rfl⟩ | ⟨opened, rfl⟩ | ⟨opened, rfl⟩ := mem_malformed_scan member
    · obtain rfl := Int.ofNat.inj same
      exact absurd ⟨line, here, starts⟩ unstarted
    · obtain rfl := Int.ofNat.inj same
      exact .inl rfl
    · obtain rfl := Int.ofNat.inj same
      exact .inr rfl
  · rw [show findings = (rule.scanner language).run 0 none lines from rule.scan_eq_run names lines]
    exact run_regions_apart rule language (by simp) lines

end TagRule

end LanguageBridge
