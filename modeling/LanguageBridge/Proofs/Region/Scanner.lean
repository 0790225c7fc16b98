import LanguageBridge.Proofs.Region.FenceLines
import LanguageBridge.Region.Tag

namespace LanguageBridge

/-! Rules that read a document line by line. What a rule finds in the first lines and the state it is
then in do not depend on the lines below, so a reading can be cut at any line. -/

/-- The same region so many lines further down. -/
def Region.shift (count : Nat) (region : Region) : Region :=
  { region with
    first := region.first + count, last := region.last + count, marker := region.marker + count }

def MalformedRegion.shift (count : Nat) (region : MalformedRegion) : MalformedRegion :=
  { region with line := region.line + count }

namespace Findings

instance : Append Findings where
  append first second :=
    ⟨first.regions ++ second.regions, first.malformed ++ second.malformed⟩

@[simp] theorem regions_append (first second : Findings) :
    (first ++ second).regions = first.regions ++ second.regions := rfl

@[simp] theorem malformed_append (first second : Findings) :
    (first ++ second).malformed = first.malformed ++ second.malformed := rfl

@[simp] theorem empty_append (findings : Findings) : ({} : Findings) ++ findings = findings := rfl

theorem append_assoc (first second third : Findings) :
    first ++ second ++ third = first ++ (second ++ third) := by
  change Findings.mk _ _ = Findings.mk _ _
  simp only [regions_append, malformed_append, List.append_assoc]

def shift (count : Nat) (findings : Findings) : Findings :=
  ⟨findings.regions.map (·.shift count), findings.malformed.map (·.shift count)⟩

@[simp] theorem shift_append (count : Nat) (first second : Findings) :
    (first ++ second).shift count = first.shift count ++ second.shift count := by
  change Findings.mk _ _ = Findings.mk _ _
  simp only [regions_append, malformed_append, List.map_append]
  rfl

end Findings

/-- A rule as a machine: its state after a line, what the line lets it find, and what it reports in
the state in which the document ends. -/
structure Scanner (State : Type) where
  next : Nat → State → List Char → State
  found : Nat → State → List Char → Findings
  atEnd : State → Findings

namespace Scanner

variable {State : Type} (scanner : Scanner State) (index : Nat) (state : State)

def stateAfter (index : Nat) (state : State) : List (List Char) → State
  | [] => state
  | line :: rest => stateAfter (index + 1) (scanner.next index state line) rest

def foundIn (index : Nat) (state : State) : List (List Char) → Findings
  | [] => {}
  | line :: rest =>
    scanner.found index state line ++ foundIn (index + 1) (scanner.next index state line) rest

def run (lines : List (List Char)) : Findings :=
  scanner.foundIn index state lines ++ scanner.atEnd (scanner.stateAfter index state lines)

theorem run_cons (line : List Char) (rest : List (List Char)) :
    scanner.run index state (line :: rest) = scanner.found index state line ++
      scanner.run (index + 1) (scanner.next index state line) rest :=
  Findings.append_assoc _ _ _

theorem stateAfter_append (front rest : List (List Char)) :
    scanner.stateAfter index state (front ++ rest) =
      scanner.stateAfter (index + front.length) (scanner.stateAfter index state front) rest := by
  induction front generalizing index state with
  | nil => rfl
  | cons line front ih =>
    simp only [List.cons_append, stateAfter, ih, List.length_cons, Nat.add_assoc, Nat.add_comm 1]

theorem run_append (front rest : List (List Char)) :
    scanner.run index state (front ++ rest) = scanner.foundIn index state front ++
      scanner.run (index + front.length) (scanner.stateAfter index state front) rest := by
  induction front generalizing index state with
  | nil => rfl
  | cons line front ih =>
    simp only [List.cons_append, run_cons, ih, foundIn, stateAfter, Findings.append_assoc,
      List.length_cons, Nat.add_assoc, Nat.add_comm 1]

theorem line_of_drop {lines rest : List (List Char)} {line : List Char} {index : Nat}
    (remaining : lines.drop index = line :: rest) :
    lines[index]? = some line ∧ lines.drop (index + 1) = rest := by
  constructor
  · rw [← Nat.add_zero index, ← List.getElem?_drop, remaining]
    rfl
  · rw [← List.drop_drop, remaining]
    rfl

theorem invariant {scanner : Scanner State} {lines rest : List (List Char)}
    (Held : Nat → State → Prop)
    (step : ∀ index state line, lines[index]? = some line → Held index state →
      Held (index + 1) (scanner.next index state line))
    {index : Nat} {state : State} (front : List (List Char))
    (remaining : lines.drop index = front ++ rest) (held : Held index state) :
    Held (index + front.length) (scanner.stateAfter index state front) := by
  induction front generalizing index state with
  | nil => exact held
  | cons line front ih =>
    obtain ⟨here, behind⟩ := line_of_drop remaining
    rw [List.length_cons, Nat.add_comm front.length, ← Nat.add_assoc]
    exact ih behind (step index state line here held)

theorem exists_line_of_mem_foundIn {scanner : Scanner State} {α : Type} (part : Findings → List α)
    (empty : part {} = []) (append : ∀ first second, part (first ++ second) = part first ++ part second)
    {index : Nat} {state : State} {lines : List (List Char)} {item : α}
    (member : item ∈ part (scanner.foundIn index state lines)) :
    ∃ front line rest, lines = front ++ line :: rest ∧ item ∈ part
      (scanner.found (index + front.length) (scanner.stateAfter index state front) line) := by
  induction lines generalizing index state with
  | nil => simp [foundIn, empty] at member
  | cons line rest ih =>
    rw [foundIn, append] at member
    rcases List.mem_append.mp member with now | behind
    · exact ⟨[], line, rest, rfl, now⟩
    · obtain ⟨front, finder, below, rfl, found⟩ := ih behind
      refine ⟨line :: front, finder, below, rfl, ?_⟩
      rwa [List.length_cons, Nat.add_comm front.length, ← Nat.add_assoc]

/-- A machine that does not look at the numbers of lines finds the same wherever it begins. -/
theorem run_shift {scanner : Scanner State} {move : State → State} {count : Nat}
    (next : ∀ index state line,
      scanner.next (index + count) (move state) line = move (scanner.next index state line))
    (found : ∀ index state line,
      scanner.found (index + count) (move state) line = (scanner.found index state line).shift count)
    (atEnd : ∀ state, scanner.atEnd (move state) = (scanner.atEnd state).shift count)
    (index : Nat) (state : State) (lines : List (List Char)) :
    scanner.run (index + count) (move state) lines =
      (scanner.run index state lines).shift count := by
  induction lines generalizing index state with
  | nil => exact atEnd state
  | cons line rest ih =>
    rw [run_cons, run_cons, Findings.shift_append, found, next, Nat.add_right_comm, ih]

end Scanner

namespace Fence

/-- The reading of fences; its state is the fence that is open. -/
def scanner (names : LanguageNames) : Scanner (Option Open) where
  next
    | index, none, line =>
      (opening? line).map fun opener => ⟨index, opener.1, languageOf names opener.2⟩
    | _, some opened, line => if opened.fence.endedBy line then none else some opened
  found
    | _, none, _ => {}
    | index, some opened, line =>
      if opened.fence.endedBy line then { regions := (opened.region? index).toList } else {}
  atEnd
    | none => {}
    | some opened => { malformed := [⟨opened.marker, "unclosed code fence", opened.language⟩] }

section Steps

variable (names : LanguageNames) (index : Nat) (opened : Open) (line : List Char)

@[simp] theorem next_none : (scanner names).next index none line =
    (opening? line).map fun opener => ⟨index, opener.1, languageOf names opener.2⟩ := rfl

@[simp] theorem next_some : (scanner names).next index (some opened) line =
    if opened.fence.endedBy line then none else some opened := rfl

@[simp] theorem found_none : (scanner names).found index none line = {} := rfl

@[simp] theorem found_some : (scanner names).found index (some opened) line =
    if opened.fence.endedBy line then { regions := (opened.region? index).toList } else {} := rfl

@[simp] theorem atEnd_none : (scanner names).atEnd none = {} := rfl

@[simp] theorem atEnd_some : (scanner names).atEnd (some opened) =
    { malformed := [⟨opened.marker, "unclosed code fence", opened.language⟩] } := rfl

end Steps

theorem scanFrom_eq_run (names : LanguageNames) (index : Nat) (current : Option Open)
    (lines : List (List Char)) :
    scanFrom names index current lines = (scanner names).run index current lines := by
  fun_induction scanFrom names index current lines with
  | case1 | case2 => rfl
  | case3 index line rest plain ih => simp [Scanner.run_cons, plain, ih]
  | case4 index line rest fence info opens ih => simp [Scanner.run_cons, opens, ih]
  | case5 index line rest opened plain ih =>
    have goesOn : opened.fence.endedBy line = false := by simp [endedBy, plain]
    simp [Scanner.run_cons, goesOn, ih]
  | case6 index line rest opened closer closing closed later ih =>
    have ended : opened.fence.endedBy line = true := by simpa [endedBy, closing] using closed
    rw [Scanner.run_cons, found_some, next_some, if_pos ended, if_pos ended, ← ih]
    rfl
  | case7 index line rest opened closer closing other ih =>
    have goesOn : opened.fence.endedBy line = false := by simpa [endedBy, closing] using other
    simp [Scanner.run_cons, goesOn, ih]

theorem scan_eq_run (names : LanguageNames) (lines : List (List Char)) :
    scan names lines = (scanner names).run 0 none lines :=
  scanFrom_eq_run names 0 none lines

end Fence

namespace TagRule

/-- The reading of tags; its state is the line since which an element is open. -/
def scanner (rule : TagRule) (language : String) : Scanner (Option Nat) where
  next
    | index, none, line => if rule.opensAfter line then some index else none
    | index, some opened, line =>
      if rule.stop.occurs line then none
      else if rule.start.occurs line then some index
      else some opened
  found
    | index, none, line =>
      if rule.stop.occurs line && !rule.start.occurs line then
        { malformed := [⟨index, "closing tag without opening tag", some language⟩] }
      else {}
    | index, some opened, line =>
      if rule.stop.occurs line then
        if 1 < index - opened then
          { regions := [⟨language, opened + 1, (index : Int) - 1, opened⟩] }
        else {}
      else if rule.start.occurs line then
        { malformed := [⟨opened, "nested opening tag", some language⟩] }
      else {}
  atEnd
    | none => {}
    | some opened => { malformed := [⟨opened, "unclosed tag", some language⟩] }

section Steps

variable (rule : TagRule) (language : String) (index opened : Nat) (line : List Char)

@[simp] theorem next_none : (rule.scanner language).next index none line =
    if rule.opensAfter line then some index else none := rfl

@[simp] theorem next_some : (rule.scanner language).next index (some opened) line =
    if rule.stop.occurs line then none
    else if rule.start.occurs line then some index
    else some opened := rfl

@[simp] theorem found_none : (rule.scanner language).found index none line =
    if rule.stop.occurs line && !rule.start.occurs line then
      { malformed := [⟨index, "closing tag without opening tag", some language⟩] }
    else {} := rfl

@[simp] theorem found_some : (rule.scanner language).found index (some opened) line =
    if rule.stop.occurs line then
      if 1 < index - opened then
        { regions := [⟨language, opened + 1, (index : Int) - 1, opened⟩] }
      else {}
    else if rule.start.occurs line then
      { malformed := [⟨opened, "nested opening tag", some language⟩] }
    else {} := rfl

@[simp] theorem atEnd_none : (rule.scanner language).atEnd none = {} := rfl

@[simp] theorem atEnd_some : (rule.scanner language).atEnd (some opened) =
    { malformed := [⟨opened, "unclosed tag", some language⟩] } := rfl

end Steps

theorem starts_of_opensAfter {rule : TagRule} {line : List Char}
    (opens : rule.opensAfter line = true) : rule.start.occurs line = true := by
  unfold opensAfter at opens
  split at opens
  · contradiction
  · rename_i after found
    simp [TagPattern.occurs, found]

theorem scanFrom_eq_run (rule : TagRule) (language : String) (index : Nat)
    (openedAt : Option Nat) (lines : List (List Char)) :
    rule.scanFrom language index openedAt lines =
      (rule.scanner language).run index openedAt lines := by
  fun_induction scanFrom rule language index openedAt lines with
  | case1 | case2 => rfl
  | case3 index line rest starts opened ih => simp [Scanner.run_cons, starts, ← ih, opened]
  | case4 index line rest starts later stops ih =>
    have shut : ¬ rule.opensAfter line = true := fun opens => starts (starts_of_opensAfter opens)
    rw [Scanner.run_cons, found_none, next_none, if_neg shut, ← ih, if_pos (by simp [stops, starts])]
    rfl
  | case5 index line rest starts later stops ih =>
    have shut : ¬ rule.opensAfter line = true := fun opens => starts (starts_of_opensAfter opens)
    simp [Scanner.run_cons, stops, shut, ← ih, later]
  | case6 index line rest opened stops later long ih =>
    rw [Scanner.run_cons, found_some, next_some, if_pos stops, if_pos stops, if_pos long, ← ih]
    rfl
  | case7 index line rest opened stops later short ih =>
    simp [Scanner.run_cons, stops, short, ← ih, later]
  | case8 index line rest opened stops starts later ih =>
    rw [Scanner.run_cons, found_some, next_some, if_neg stops, if_neg stops, if_pos starts,
      if_pos starts, ← ih]
    rfl
  | case9 index line rest opened stops starts ih =>
    simp [Scanner.run_cons, stops, starts, ih]

theorem scan_eq_run (rule : TagRule) (names : LanguageNames) (lines : List (List Char)) :
    rule.scan names lines =
      (rule.scanner (names.resolve rule.language.toList)).run 0 none lines :=
  rule.scanFrom_eq_run _ 0 none lines

end TagRule

end LanguageBridge
