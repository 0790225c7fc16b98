import LanguageBridge.Region.Fence

namespace LanguageBridge

/-! Which lines open and close a fence, said of the characters of the line. -/

namespace Text

/-- A run of one character that goes on as long as it can. -/
theorem run_iff {c : Char} {count : Nat} {text rest : List Char} :
    text = List.replicate count c ++ rest ∧ rest.head? ≠ some c ↔
      count = (text.takeWhile (· = c)).length ∧ rest = text.dropWhile (· = c) := by
  constructor
  · rintro ⟨rfl, ended⟩
    have same : ∀ d ∈ List.replicate count c, decide (d = c) = true := by simp
    have stopped : rest.takeWhile (· = c) = [] ∧ rest.dropWhile (· = c) = rest := by
      cases rest with
      | nil => exact ⟨rfl, rfl⟩
      | cons first rest =>
        have other : ¬ first = c := fun same => ended (congrArg some same)
        exact ⟨List.takeWhile_cons_of_neg (by simpa using other),
          List.dropWhile_cons_of_neg (by simpa using other)⟩
    rw [List.takeWhile_append_of_pos same, List.dropWhile_append_of_pos same, stopped.1, stopped.2]
    simp
  · rintro ⟨rfl, rfl⟩
    have run : text.takeWhile (· = c) = List.replicate (text.takeWhile (· = c)).length c := by
      refine List.eq_replicate_iff.mpr ⟨rfl, fun d member => ?_⟩
      simpa using List.all_eq_true.mp List.all_takeWhile d member
    refine ⟨?_, fun first => ?_⟩
    · rw [← run, List.takeWhile_append_dropWhile]
    · have held := List.head?_dropWhile_not (fun d : Char => decide (d = c)) text
      rw [first] at held
      simp at held

end Text

namespace Fence

/-- At most three spaces, a whole run of three or more marks, and the rest of the line. -/
structure Leads (fence : Fence) (rest line : List Char) : Prop where
  mark : fence.mark = '`' ∨ fence.mark = '~'
  long : 3 ≤ fence.length
  whole : rest.head? ≠ some fence.mark
  line : ∃ spaces ≤ 3, line =
    List.replicate spaces ' ' ++ (List.replicate fence.length fence.mark ++ rest)

/-- A line that opens a fence. What stands behind the marks is the info text, blanks at its ends
aside; behind backticks it has none. -/
def Opens (fence : Fence) (info line : List Char) : Prop :=
  ∃ rest, fence.Leads rest line ∧ info = Text.trim rest ∧ (fence.mark = '`' → '`' ∉ info)

/-- A line that ends what `opener` has opened: bare marks of the same kind, and as many or more. -/
def Ends (opener : Fence) (line : List Char) : Prop :=
  ∃ (closer : Fence) (rest : List Char), closer.Leads rest line ∧
    (∀ c ∈ rest, Text.isBlank c = true) ∧ closer.mark = opener.mark ∧
    opener.length ≤ closer.length

theorem parse?_of_marked {line behind : List Char} {mark : Char}
    (marked : line.dropWhile (· = ' ') = mark :: behind) :
    parse? line =
      if (line.takeWhile (· = ' ')).length ≤ 3 ∧ (mark = '`' ∨ mark = '~') ∧
          3 ≤ (behind.takeWhile (· = mark)).length + 1 then
        some (⟨mark, (behind.takeWhile (· = mark)).length + 1⟩, behind.dropWhile (· = mark))
      else none := by
  simp only [parse?, marked, Nat.add_comm 1]

theorem parse?_eq_some_iff {line rest : List Char} {fence : Fence} :
    parse? line = some (fence, rest) ↔ fence.Leads rest line := by
  constructor
  · intro parsed
    obtain ⟨indented, -⟩ := Text.run_iff.mpr
      ⟨rfl, (rfl : line.dropWhile (· = ' ') = line.dropWhile (· = ' '))⟩
    cases marked : line.dropWhile (· = ' ') with
    | nil => simp [parse?, marked] at parsed
    | cons mark behind =>
      obtain ⟨run, ended⟩ := Text.run_iff.mpr
        ⟨rfl, (rfl : behind.dropWhile (· = mark) = behind.dropWhile (· = mark))⟩
      rw [parse?_of_marked marked] at parsed
      split at parsed
      · rename_i held
        cases parsed
        refine ⟨held.2.1, held.2.2, ended, _, held.1, ?_⟩
        rw [List.replicate_succ, List.cons_append, ← run, ← marked]
        exact indented
      · contradiction
  · rintro ⟨kind, long, whole, spaces, few, indented⟩
    obtain ⟨mark, length⟩ := fence
    simp only at kind long whole indented
    obtain ⟨more, rfl⟩ : ∃ more, length = more + 1 := ⟨length - 1, by omega⟩
    have plain : mark ≠ ' ' := by
      rintro rfl
      simp at kind
    rw [List.replicate_succ, List.cons_append] at indented
    obtain ⟨indent, marked⟩ := Text.run_iff.mp ⟨indented, by simpa using plain⟩
    obtain ⟨run, behind⟩ := Text.run_iff.mp ⟨rfl, whole⟩
    rw [parse?_of_marked marked.symm, ← indent, ← run, ← behind, if_pos ⟨few, kind, long⟩]

theorem opening?_eq_some_iff {line info : List Char} {fence : Fence} :
    opening? line = some (fence, info) ↔ fence.Opens info line := by
  simp only [Opens, ← parse?_eq_some_iff, opening?]
  constructor
  · intro opened
    split at opened
    · contradiction
    · rename_i found rest parsed
      split at opened
      · contradiction
      · rename_i span
        cases opened
        exact ⟨rest, parsed, rfl, fun mark member => span ⟨mark, member⟩⟩
  · rintro ⟨rest, parsed, rfl, free⟩
    rw [parsed]
    exact if_neg fun span => free span.1 span.2

theorem closing?_eq_some_iff {line : List Char} {fence : Fence} :
    closing? line = some fence ↔
      ∃ rest, fence.Leads rest line ∧ ∀ c ∈ rest, Text.isBlank c = true := by
  simp only [← parse?_eq_some_iff, closing?]
  constructor
  · intro closed
    split at closed
    · contradiction
    · rename_i found rest parsed
      split at closed
      · rename_i bare
        cases closed
        exact ⟨rest, parsed, List.all_eq_true.mp bare⟩
      · contradiction
  · rintro ⟨rest, parsed, bare⟩
    rw [parsed]
    exact if_pos (List.all_eq_true.mpr bare)

def endedBy (opener : Fence) (line : List Char) : Bool :=
  (closing? line).any (·.closes opener)

theorem endedBy_iff {line : List Char} {opener : Fence} :
    opener.endedBy line = true ↔ opener.Ends line := by
  simp only [endedBy, Option.any_eq_true, closing?_eq_some_iff, closes, Bool.and_eq_true,
    decide_eq_true_eq]
  constructor
  · rintro ⟨closer, ⟨rest, leads, bare⟩, same, long⟩
    exact ⟨closer, rest, leads, bare, same, long⟩
  · rintro ⟨closer, rest, leads, bare, same, long⟩
    exact ⟨closer, ⟨rest, leads, bare⟩, same, long⟩

end Fence

end LanguageBridge
