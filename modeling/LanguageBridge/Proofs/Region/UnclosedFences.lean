import LanguageBridge.Proofs.Region.Scanner

namespace LanguageBridge

/-! A fence that is never ended. All lines below it were read as its content, so the regions that
they would hold without it are lost. -/

namespace Fence

def Open.shift (count : Nat) (opened : Open) : Open :=
  { opened with marker := opened.marker + count }

theorem Open.region?_shift (count index : Nat) (opened : Open) :
    (opened.shift count).region? (index + count) =
      (opened.region? index).map (·.shift count) := by
  obtain ⟨marker, fence, language⟩ := opened
  cases language with
  | none => rfl
  | some language =>
    have same : index + count - (marker + count) = index - marker := by omega
    simp only [Open.region?, Open.shift, same]
    split
    · simp only [Option.map_some, Region.shift, Option.some.injEq, Region.mk.injEq, true_and]
      omega
    · rfl

theorem run_shift (names : LanguageNames) (count index : Nat) (current : Option Open)
    (lines : List (List Char)) :
    (scanner names).run (index + count) (current.map (·.shift count)) lines =
      ((scanner names).run index current lines).shift count := by
  refine Scanner.run_shift ?_ ?_ ?_ index current lines
  · intro index current line
    cases current with
    | none =>
      simp only [Option.map_none, next_none, Option.map_map]
      rfl
    | some opened =>
      simp only [Option.map_some, next_some, Open.shift]
      split <;> rfl
  · intro index current line
    cases current with
    | none => rfl
    | some opened =>
      simp only [Option.map_some, found_some, Open.region?_shift]
      change (if opened.fence.endedBy line then _ else _) = _
      split
      · cases opened.region? index <;> rfl
      · rfl
  · intro current
    cases current <;> rfl

/-! ### What is open at the end -/

variable {names : LanguageNames} {opened : Open}

theorem foundIn_malformed (names : LanguageNames) (index : Nat) (current : Option Open)
    (lines : List (List Char)) :
    ((scanner names).foundIn index current lines).malformed = [] := by
  induction lines generalizing index current with
  | nil => rfl
  | cons line rest ih =>
    rw [Scanner.foundIn, Findings.malformed_append, ih, List.append_nil]
    cases current with
    | none => rfl
    | some opened =>
      rw [found_some]
      split <;> rfl

theorem run_unended (index : Nat) {lines : List (List Char)}
    (unended : ∀ line ∈ lines, opened.fence.endedBy line = false) :
    (scanner names).run index (some opened) lines = (scanner names).atEnd (some opened) := by
  induction lines generalizing index with
  | nil => rfl
  | cons line rest ih =>
    have goesOn := unended line List.mem_cons_self
    have below := ih (index + 1) fun line member => unended line (List.mem_cons_of_mem _ member)
    simp [Scanner.run_cons, goesOn, below]

/-- A fence that is open at the end was open before, or the line that opened it is among those that
were read, and no line behind that one ends it. -/
theorem exists_opener_of_stateAfter {index : Nat} {current : Option Open}
    {lines : List (List Char)}
    (still : (scanner names).stateAfter index current lines = some opened) :
    (current = some opened ∧ ∀ line ∈ lines, opened.fence.endedBy line = false) ∨
      ∃ front line rest, lines = front ++ line :: rest ∧
        (scanner names).stateAfter index current front = none ∧
        (scanner names).next (index + front.length) none line = some opened ∧
        ∀ line ∈ rest, opened.fence.endedBy line = false := by
  induction lines generalizing index current with
  | nil => exact .inl ⟨still, by simp⟩
  | cons line rest ih =>
    obtain ⟨now, unended⟩ | ⟨front, opener, below, rfl, before, opens, unended⟩ := ih still
    · cases current with
      | none => exact .inr ⟨[], line, rest, rfl, rfl, now, unended⟩
      | some known =>
        rw [next_some] at now
        split at now
        · contradiction
        · rename_i goesOn
          cases now
          refine .inl ⟨rfl, List.forall_mem_cons.mpr ⟨?_, unended⟩⟩
          simpa using goesOn
    · refine .inr ⟨line :: front, opener, below, rfl, before, ?_, unended⟩
      rwa [List.length_cons, Nat.add_comm front.length, ← Nat.add_assoc]

theorem exists_opener_of_reported {lines : List (List Char)} {marker : Nat}
    {language : Option String}
    (reported : ⟨marker, "unclosed code fence", language⟩ ∈ (scan names lines).malformed) :
    ∃ opened front line rest, lines = front ++ line :: rest ∧ front.length = marker ∧
      (scanner names).stateAfter 0 none front = none ∧
      (scanner names).next marker none line = some opened ∧
      ∀ line ∈ rest, opened.fence.endedBy line = false := by
  rw [scan_eq_run, Scanner.run, Findings.malformed_append, foundIn_malformed] at reported
  cases still : (scanner names).stateAfter 0 none lines with
  | none => simp [still] at reported
  | some opened =>
    have here : (marker : Int) = opened.marker := by
      rw [still, atEnd_some, List.nil_append, List.mem_singleton] at reported
      exact congrArg MalformedRegion.line reported
    obtain ⟨never, -⟩ | ⟨front, line, rest, split, before, opens, unended⟩ :=
      exists_opener_of_stateAfter still
    · contradiction
    · rw [Nat.zero_add] at opens
      have place : front.length = marker := by
        obtain ⟨opener, -, same⟩ := Option.map_eq_some_iff.mp opens
        have := congrArg Open.marker same
        simp only at this
        omega
      exact ⟨opened, front, line, rest, split, place, before, place ▸ opens, unended⟩

/-- The document with the line of the bad fence left blank has all its regions, and besides them those
of the lines below. So the bad fence does no harm exactly if these, read by themselves, have none. -/
theorem regions_lost_below_unclosed (names : LanguageNames) {lines : List (List Char)}
    {marker : Nat} {language : Option String}
    (reported : ⟨marker, "unclosed code fence", language⟩ ∈ (scan names lines).malformed) :
    (scan names (lines.set marker [])).regions =
      (scan names lines).regions ++
        (scan names (lines.drop (marker + 1))).regions.map (·.shift (marker + 1)) ∧
    ((scan names (lines.set marker [])).regions = (scan names lines).regions ↔
      (scan names (lines.drop (marker + 1))).regions = []) := by
  obtain ⟨opened, front, line, rest, rfl, rfl, before, opens, unended⟩ :=
    exists_opener_of_reported reported
  have kept : (scan names (front ++ line :: rest)).regions =
      ((scanner names).foundIn 0 none front).regions := by
    rw [scan_eq_run, Scanner.run_append, before, Nat.zero_add, Scanner.run_cons, opens, found_none,
      Findings.empty_append, run_unended _ unended, Findings.regions_append]
    exact List.append_nil _
  have blanked : (scan names ((front ++ line :: rest).set front.length [])).regions =
      ((scanner names).foundIn 0 none front).regions ++
        (scan names rest).regions.map (·.shift (front.length + 1)) := by
    have plain : (scanner names).next front.length none [] = none := rfl
    have below := run_shift names (front.length + 1) 0 none rest
    rw [Nat.zero_add, Option.map_none] at below
    rw [List.set_append_right _ _ (Nat.le_refl _), Nat.sub_self, List.set_cons_zero, scan_eq_run,
      scan_eq_run, Scanner.run_append, before, Nat.zero_add, Scanner.run_cons, found_none,
      Findings.empty_append, plain, below]
    rfl
  have behind : (front ++ line :: rest).drop (front.length + 1) = rest := by
    simp
  rw [behind, kept, blanked]
  exact ⟨rfl, by simp⟩

theorem regions_kept_above_unclosed :
    let lines := ["```py", "x = 1", "```", "```r", "y <- 2"].map String.toList
    ⟨3, "unclosed code fence", some "r"⟩ ∈ (scan {} lines).malformed ∧
      (scan {} (lines.set 3 [])).regions = (scan {} lines).regions ∧
      (scan {} lines).regions = [⟨"py", 1, 1, 0⟩] := by
  intro lines
  have found : scan {} lines =
      ⟨[⟨"py", 1, 1, 0⟩], [⟨3, "unclosed code fence", some "r"⟩]⟩ := by decide +kernel
  have below : (scan {} (lines.drop 4)).regions = [] := by decide +kernel
  have reported : ⟨(3 : Nat), "unclosed code fence", some "r"⟩ ∈ (scan {} lines).malformed := by
    simp [found]
  exact ⟨reported, (regions_lost_below_unclosed {} reported).2.mpr below, by rw [found]⟩

/-- Tildes below backticks that are never closed: as long as the backticks stand there, the python
lines are not found. -/
theorem tildes_lost_below_backticks :
    let lines := ["```r", "y <- 2", "", "~~~python", "x = 1", "~~~"].map String.toList
    ⟨0, "unclosed code fence", some "r"⟩ ∈ (scan {} lines).malformed ∧
      (scan {} lines).regions = [] ∧
      (scan {} (lines.set 0 [])).regions = [⟨"python", 4, 4, 3⟩] := by
  intro lines
  have found : scan {} lines = ⟨[], [⟨0, "unclosed code fence", some "r"⟩]⟩ := by decide +kernel
  have blanked : scan {} (lines.set 0 []) = ⟨[⟨"python", 4, 4, 3⟩], []⟩ := by decide +kernel
  rw [found, blanked]
  simp

end Fence

end LanguageBridge
