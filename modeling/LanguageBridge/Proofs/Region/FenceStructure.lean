import LanguageBridge.Proofs.Region.Scanner

namespace LanguageBridge.Fence

/-! The fences of a document, found from above: the first line that opens a fence, the first line
behind it that ends this fence, and so on below. -/

section

variable (names : LanguageNames) (lines : List (List Char))

def OpensAt (index : Nat) (fence : Fence) (info : List Char) : Prop :=
  ∃ line, lines[index]? = some line ∧ fence.Opens info line

def EndsAt (index : Nat) (opener : Fence) : Prop :=
  ∃ line, lines[index]? = some line ∧ opener.Ends line

structure FirstOpener (cursor marker : Nat) (fence : Fence) (info : List Char) : Prop where
  reached : cursor ≤ marker
  opens : OpensAt lines marker fence info
  first : ∀ index, cursor ≤ index → index < marker → ∀ other text, ¬ OpensAt lines index other text

structure FirstCloser (marker closer : Nat) (opener : Fence) : Prop where
  below : marker < closer
  ends : EndsAt lines closer opener
  first : ∀ index, marker < index → index < closer → ¬ EndsAt lines index opener

/-- What the lines from `cursor` on hold. A fence that is never ended takes all lines below it. -/
inductive Structured : Nat → Findings → Prop
  | prose {cursor : Nat}
      (plain : ∀ index, cursor ≤ index → ∀ fence info, ¬ OpensAt lines index fence info) :
      Structured cursor {}
  | unclosed {cursor marker : Nat} {fence : Fence} {info : List Char}
      (opener : FirstOpener lines cursor marker fence info)
      (unended : ∀ index, marker < index → ¬ EndsAt lines index fence) :
      Structured cursor
        { malformed := [⟨marker, "unclosed code fence", languageOf names info⟩] }
  | silent {cursor marker closer : Nat} {fence : Fence} {info : List Char} {later : Findings}
      (opener : FirstOpener lines cursor marker fence info)
      (closed : FirstCloser lines marker closer fence)
      (empty : languageOf names info = none ∨ closer = marker + 1)
      (below : Structured (closer + 1) later) :
      Structured cursor later
  | region {cursor marker closer : Nat} {fence : Fence} {info : List Char} {language : String}
      {later : Findings}
      (opener : FirstOpener lines cursor marker fence info)
      (closed : FirstCloser lines marker closer fence)
      (named : languageOf names info = some language) (long : marker + 1 < closer)
      (below : Structured (closer + 1) later) :
      Structured cursor
        { later with regions :=
            ⟨language, marker + 1, (closer : Int) - 1, marker⟩ :: later.regions }

/-- How far a reading that began at `cursor` has come when it reaches `index`. -/
inductive Underway (cursor index : Nat) : Option Open → Prop
  | outside (reached : cursor ≤ index)
      (plain : ∀ k, cursor ≤ k → k < index → ∀ fence info, ¬ OpensAt lines k fence info) :
      Underway cursor index none
  | inside {marker : Nat} {fence : Fence} {info : List Char}
      (opener : FirstOpener lines cursor marker fence info) (passed : marker < index)
      (unended : ∀ k, marker < k → k < index → ¬ EndsAt lines k fence) :
      Underway cursor index (some ⟨marker, fence, languageOf names info⟩)

end

variable {names : LanguageNames} {lines : List (List Char)} {cursor index marker closer : Nat}
  {fence other : Fence} {info text line : List Char}

theorem opensAt_iff (here : lines[index]? = some line) :
    OpensAt lines index fence info ↔ opening? line = some (fence, info) := by
  simp [OpensAt, here, opening?_eq_some_iff]

theorem endsAt_iff (here : lines[index]? = some line) :
    EndsAt lines index fence ↔ fence.endedBy line = true := by
  simp [EndsAt, here, endedBy_iff]

/-! ### A document has one structure -/

theorem OpensAt.unique (first : OpensAt lines index fence info)
    (second : OpensAt lines index other text) : fence = other ∧ info = text := by
  obtain ⟨line, here, opens⟩ := first
  have same := (opening?_eq_some_iff.mpr opens).symm.trans ((opensAt_iff here).mp second)
  simpa using same

theorem FirstOpener.unique {place : Nat} (first : FirstOpener lines cursor marker fence info)
    (second : FirstOpener lines cursor place other text) :
    marker = place ∧ fence = other ∧ info = text := by
  obtain less | rfl | more := Nat.lt_trichotomy marker place
  · exact absurd first.opens (second.first marker first.reached less _ _)
  · exact ⟨rfl, first.opens.unique second.opens⟩
  · exact absurd second.opens (first.first place second.reached more _ _)

theorem FirstCloser.unique {place : Nat} (first : FirstCloser lines marker closer fence)
    (second : FirstCloser lines marker place fence) : closer = place := by
  obtain less | same | more := Nat.lt_trichotomy closer place
  · exact absurd first.ends (second.first closer first.below less)
  · exact same
  · exact absurd second.ends (first.first place second.below more)

/-- Once the first fence and its end are known, only what stands below is left open. -/
theorem Structured.behind {findings : Findings} (opener : FirstOpener lines cursor marker fence info)
    (closed : FirstCloser lines marker closer fence)
    (structured : Structured names lines cursor findings) :
    ∃ later, Structured names lines (closer + 1) later ∧
      ((languageOf names info = none ∨ closer = marker + 1) ∧ findings = later ∨
        ∃ language, languageOf names info = some language ∧ marker + 1 < closer ∧
          findings = { later with regions :=
            ⟨language, marker + 1, (closer : Int) - 1, marker⟩ :: later.regions }) := by
  cases structured with
  | prose plain => exact absurd opener.opens (plain _ opener.reached _ _)
  | unclosed again unended =>
    obtain ⟨rfl, rfl, rfl⟩ := opener.unique again
    exact absurd closed.ends (unended _ closed.below)
  | silent again closedAgain empty below =>
    obtain ⟨rfl, rfl, rfl⟩ := opener.unique again
    obtain rfl := closed.unique closedAgain
    exact ⟨_, below, .inl ⟨empty, rfl⟩⟩
  | region again closedAgain named long below =>
    obtain ⟨rfl, rfl, rfl⟩ := opener.unique again
    obtain rfl := closed.unique closedAgain
    exact ⟨_, below, .inr ⟨_, named, long, rfl⟩⟩

theorem Structured.unique {first second : Findings} (one : Structured names lines cursor first)
    (two : Structured names lines cursor second) : first = second := by
  induction one generalizing second with
  | prose plain =>
    cases two with
    | prose => rfl
    | unclosed opener | silent opener | region opener =>
      exact absurd opener.opens (plain _ opener.reached _ _)
  | unclosed opener unended =>
    cases two with
    | prose plain => exact absurd opener.opens (plain _ opener.reached _ _)
    | unclosed again =>
      obtain ⟨rfl, rfl, rfl⟩ := opener.unique again
      rfl
    | silent again closed | region again closed =>
      obtain ⟨rfl, rfl, rfl⟩ := opener.unique again
      exact absurd closed.ends (unended _ closed.below)
  | silent opener closed empty below ih =>
    obtain ⟨later, again, ⟨-, rfl⟩ | ⟨language, named, long, -⟩⟩ := two.behind opener closed
    · exact ih again
    · rcases empty with unnamed | short
      · simp [unnamed] at named
      · omega
  | region opener closed named long below ih =>
    obtain ⟨later, again, ⟨unnamed | short, -⟩ | ⟨language, same, -, rfl⟩⟩ :=
      two.behind opener closed
    · simp [unnamed] at named
    · omega
    · obtain rfl := Option.some.inj (named.symm.trans same)
      rw [ih again]

/-! ### The reading finds it -/

theorem Underway.skip (here : lines[index]? = some line) (plain : opening? line = none)
    (underway : Underway names lines cursor index none) :
    Underway names lines cursor (index + 1) none := by
  obtain ⟨reached, before⟩ := underway
  refine .outside (by omega) fun k since below fence info opens => ?_
  obtain earlier | rfl := Nat.lt_succ_iff_lt_or_eq.mp below
  · exact before k since earlier fence info opens
  · simp [opensAt_iff here, plain] at opens

theorem Underway.open (here : lines[index]? = some line) (opens : opening? line = some (fence, info))
    (underway : Underway names lines cursor index none) :
    Underway names lines cursor (index + 1) (some ⟨index, fence, languageOf names info⟩) := by
  obtain ⟨reached, before⟩ := underway
  exact .inside ⟨reached, (opensAt_iff here).mpr opens, before⟩ (Nat.lt_succ_self index)
    fun k below above => by omega

theorem Underway.stay {opened : Open} (here : lines[index]? = some line)
    (unended : opened.fence.endedBy line = false)
    (underway : Underway names lines cursor index (some opened)) :
    Underway names lines cursor (index + 1) (some opened) := by
  cases underway with
  | inside opener passed before =>
    refine .inside opener (by omega) fun k below above ends => ?_
    obtain earlier | rfl := Nat.lt_succ_iff_lt_or_eq.mp above
    · exact before k below earlier ends
    · simp [endsAt_iff here, unended] at ends

theorem Underway.finish {current : Option Open} (reachedEnd : lines.length ≤ index)
    (underway : Underway names lines cursor index current) :
    Structured names lines cursor ((scanner names).atEnd current) := by
  have beyond : ∀ k, index ≤ k → lines[k]? = none :=
    fun k above => List.getElem?_eq_none (by omega)
  cases underway with
  | outside reached plain =>
    refine .prose fun k since fence info opens => ?_
    by_cases below : k < index
    · exact plain k since below fence info opens
    · obtain ⟨line, here, -⟩ := opens
      simp [beyond k (by omega)] at here
  | inside opener passed unended =>
    refine .unclosed opener fun k behind ends => ?_
    by_cases below : k < index
    · exact unended k behind below ends
    · obtain ⟨line, here, -⟩ := ends
      simp [beyond k (by omega)] at here

theorem Underway.close {opened : Open} {later : Findings} (here : lines[index]? = some line)
    (ended : opened.fence.endedBy line = true)
    (underway : Underway names lines cursor index (some opened))
    (below : Structured names lines (index + 1) later) :
    Structured names lines cursor
      (({ regions := (opened.region? index).toList } : Findings) ++ later) := by
  cases underway with
  | @inside marker fence info opener passed unended =>
    have closed : FirstCloser lines marker index fence :=
      ⟨passed, (endsAt_iff here).mpr ended, unended⟩
    cases named : languageOf names info with
    | none => simpa [Open.region?, named] using .silent opener closed (.inl named) below
    | some language =>
      by_cases long : marker + 1 < index
      · have far : 1 < index - marker := by omega
        simp only [Open.region?, far, if_true, Option.toList_some]
        exact .region opener closed named long below
      · have near : ¬ 1 < index - marker := by omega
        have next : index = marker + 1 := by omega
        simpa [Open.region?, named, near] using .silent opener closed (.inr next) below

/-- The rest of a reading, whatever it has come through. -/
theorem structured_run (rest : List (List Char)) (remaining : lines.drop index = rest)
    {current : Option Open} (underway : Underway names lines cursor index current) :
    Structured names lines cursor ((scanner names).run index current rest) := by
  induction rest generalizing index cursor current with
  | nil => exact underway.finish (List.drop_eq_nil_iff.mp remaining)
  | cons line rest ih =>
    obtain ⟨here, behind⟩ := Scanner.line_of_drop remaining
    rw [Scanner.run_cons]
    cases current with
    | none =>
      rw [next_none, found_none, Findings.empty_append]
      cases opens : opening? line with
      | none => exact ih behind (underway.skip here opens)
      | some opener => exact ih behind (underway.open here opens)
    | some opened =>
      rw [next_some, found_some]
      cases ended : opened.fence.endedBy line with
      | false => exact ih behind (underway.stay here ended)
      | true =>
        have below := ih behind (.outside (Nat.le_refl _) fun k since above => by omega)
        exact underway.close here ended below

theorem scan_structured (names : LanguageNames) (lines : List (List Char)) :
    Structured names lines 0 (scan names lines) := by
  rw [scan_eq_run]
  exact structured_run lines List.drop_zero (.outside (Nat.le_refl 0) fun k since above => by omega)

/-! ### Regions -/

/-- A region is what stands between the marker lines of a fence that names its language. -/
theorem Structured.of_mem_regions {findings : Findings} {region : Region}
    (structured : Structured names lines cursor findings) (member : region ∈ findings.regions) :
    ∃ (marker closer : Nat) (fence : Fence) (info : List Char) (language : String),
      OpensAt lines marker fence info ∧ FirstCloser lines marker closer fence ∧
      languageOf names info = some language ∧ marker + 1 < closer ∧
      region = ⟨language, marker + 1, (closer : Int) - 1, marker⟩ := by
  induction structured with
  | prose | unclosed => simp at member
  | silent _ _ _ _ ih => exact ih member
  | @region _ marker closer fence info language _ opener closed named long _ ih =>
    rcases List.mem_cons.mp member with rfl | behind
    · exact ⟨marker, closer, fence, info, language, opener.opens, closed, named, long, rfl⟩
    · exact ih behind

theorem Structured.region_unended {findings : Findings} {region : Region}
    (structured : Structured names lines cursor findings) (member : region ∈ findings.regions) :
    ∃ (marker : Nat) (fence : Fence) (info : List Char), region.marker = marker ∧
      OpensAt lines marker fence info ∧ ∀ index : Nat,
        region.first ≤ index → index ≤ region.last → ¬ EndsAt lines index fence := by
  obtain ⟨marker, closer, fence, info, language, opens, closed, -, -, rfl⟩ :=
    structured.of_mem_regions member
  refine ⟨marker, fence, info, rfl, opens, fun index first last => ?_⟩
  simp only at first last
  exact closed.first index (by omega) (by omega)

theorem Structured.regions_apart {findings : Findings}
    (structured : Structured names lines cursor findings) :
    (∀ region ∈ findings.regions, (cursor : Int) < region.first) ∧
      findings.regions.Pairwise fun a b => a.last < b.first := by
  induction structured with
  | prose | unclosed => simp
  | silent opener closed _ _ ih =>
    have reached := opener.reached
    have below := closed.below
    refine ⟨fun region member => ?_, ih.2⟩
    have := ih.1 region member
    omega
  | region opener closed _ long _ ih =>
    have reached := opener.reached
    refine ⟨fun region member => ?_, List.pairwise_cons.mpr ⟨fun region member => ?_, ih.2⟩⟩
    · rcases List.mem_cons.mp member with rfl | behind
      · simp only
        omega
      · have := ih.1 region behind
        omega
    · have := ih.1 region member
      simp only
      omega

theorem covering_length_le_one {regions : List Region}
    (apart : regions.Pairwise fun a b => a.last < b.first) (index : Int) :
    (regions.filter fun region => region.first ≤ index ∧ index ≤ region.last).length ≤ 1 := by
  have still := apart.filter fun region => region.first ≤ index ∧ index ≤ region.last
  cases found : regions.filter fun region => region.first ≤ index ∧ index ≤ region.last with
  | nil => simp
  | cons first rest =>
    cases rest with
    | nil => simp
    | cons second rest =>
      have covers : ∀ region ∈ first :: second :: rest,
          region.first ≤ index ∧ index ≤ region.last := by
        intro region member
        rw [← found] at member
        exact of_decide_eq_true (List.mem_filter.mp member).2
      rw [found] at still
      have less := (List.pairwise_cons.mp still).1 second List.mem_cons_self
      have one := covers first List.mem_cons_self
      have two := covers second (List.mem_cons_of_mem _ List.mem_cons_self)
      omega

/-- The reading of a document gives its structure of fences and nothing else. No region holds a line
that ends its own fence, and no line is in two regions. -/
theorem scan_eq_iff_structured (names : LanguageNames) (lines : List (List Char)) :
    (∀ findings, scan names lines = findings ↔ Structured names lines 0 findings) ∧
    (∀ region ∈ (scan names lines).regions,
      ∃ (marker : Nat) (fence : Fence) (info : List Char), region.marker = marker ∧
        OpensAt lines marker fence info ∧ ∀ index : Nat,
          region.first ≤ index → index ≤ region.last → ¬ EndsAt lines index fence) ∧
    ∀ index : Int, ((scan names lines).regions.filter fun region =>
      region.first ≤ index ∧ index ≤ region.last).length ≤ 1 := by
  have structured := scan_structured names lines
  refine ⟨fun findings => ⟨fun same => same ▸ structured, structured.unique⟩,
    fun region member => structured.region_unended member, ?_⟩
  exact covering_length_le_one structured.regions_apart.2

end LanguageBridge.Fence
