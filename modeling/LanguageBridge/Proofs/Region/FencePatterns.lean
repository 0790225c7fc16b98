import Mathlib.Data.List.TakeWhile
import LanguageBridge.Proofs.Lines
import LanguageBridge.Proofs.Region.FenceLines

namespace LanguageBridge

/-! Fence lines as patterns describe them. A pattern is a row of stretches of characters, each as long
or as short as what follows allows; the ways to go through a line are tried in order, and the first
one counts. For fence lines this comes to what is read off them directly, without going back. -/

namespace Text

theorem trimRight_of_blank {text : List Char} (blank : text.all isBlank = true) :
    trimRight text = [] := by
  rw [trimRight, List.reverse_eq_nil_iff, List.dropWhile_eq_nil_iff]
  simpa using blank

theorem trimRight_cons {c : Char} {rest : List Char} (solid : ¬ (c :: rest).all isBlank = true) :
    trimRight (c :: rest) = c :: trimRight rest := by
  rw [trimRight, trimRight, List.reverse_cons, List.dropWhile_append]
  split
  · rename_i cleared
    rw [List.isEmpty_iff] at cleared
    have blank : rest.all isBlank = true := by simpa using List.dropWhile_eq_nil_iff.mp cleared
    have plain : ¬ isBlank c = true := fun also => solid (by rw [List.all_cons, also, blank]; rfl)
    rw [cleared, List.dropWhile_cons_of_neg plain]
    rfl
  · simp

/-! ### Stretches -/

/-- The stretches at the front of a text with `least` or more characters that pass a test, no more
than `most` if that is given, and what follows each. The longest is tried first, or the shortest. -/
def stretches (pass : Char → Bool) (longest : Bool) :
    Nat → Option Nat → List Char → List (List Char × List Char)
  | least, _, [] => if least = 0 then [([], [])] else []
  | least, most, c :: rest =>
    let here := if least = 0 then [([], c :: rest)] else []
    let further :=
      if pass c ∧ most ≠ some 0 then
        (stretches pass longest (least - 1) (most.map (· - 1)) rest).map fun part =>
          (c :: part.1, part.2)
      else []
    if longest then further ++ here else here ++ further

/-- All ways through a text: behind each stretch, the ways in which it can go on. -/
def followed {β : Type} (stretches : List (List Char × List Char))
    (after : List Char → List Char → List β) : List β :=
  stretches.flatMap fun part => after part.1 part.2

variable {pass : Char → Bool} {longest : Bool} {least : Nat} {most : Option Nat} {text : List Char}

theorem mem_stretches {part : List Char × List Char}
    (member : part ∈ stretches pass longest least most text) :
    part.1 ++ part.2 = text ∧ (∀ c ∈ part.1, pass c = true) ∧ least ≤ part.1.length ∧
      ∀ bound ∈ most, part.1.length ≤ bound := by
  induction text generalizing part least most with
  | nil =>
    simp only [stretches] at member
    split at member
    · rename_i none
      rw [List.mem_singleton.mp member]
      simp [none]
    · contradiction
  | cons c rest ih =>
    have either : (least = 0 ∧ part = ([], c :: rest)) ∨ ((pass c ∧ most ≠ some 0) ∧
        ∃ behind ∈ stretches pass longest (least - 1) (most.map (· - 1)) rest,
          (c :: behind.1, behind.2) = part) := by
      simp only [stretches] at member
      grind
    rcases either with ⟨none, rfl⟩ | ⟨⟨passes, more⟩, behind, inRest, rfl⟩
    · simp [none]
    · obtain ⟨whole, passed, enough, fits⟩ := ih inRest
      refine ⟨by simp [whole], by simpa [passes] using passed, ?_, ?_⟩
      · rw [List.length_cons]
        omega
      · rintro bound ⟨⟩
        have positive : bound ≠ 0 := fun zero => more (congrArg some zero)
        have within := fits (bound - 1) rfl
        rw [List.length_cons]
        omega

/-- A stretch is the longest of all, or it stops in front of a character that would pass. -/
theorem longest_or_short {part : List Char × List Char}
    (member : part ∈ stretches pass longest least most text) :
    part = (text.takeWhile pass, text.dropWhile pass) ∨
      ∃ c behind, part.2 = c :: behind ∧ pass c = true := by
  obtain ⟨rfl, passed, -, -⟩ := mem_stretches member
  obtain ⟨taken, rest⟩ := part
  rw [List.takeWhile_append_of_pos passed, List.dropWhile_append_of_pos passed]
  cases rest with
  | nil => simp
  | cons c behind =>
    by_cases more : pass c = true
    · exact Or.inr ⟨c, behind, rfl, more⟩
    · refine Or.inl ?_
      rw [List.takeWhile_cons_of_neg more, List.dropWhile_cons_of_neg more, List.append_nil]

theorem stretches_of_short (short : (text.takeWhile pass).length < least) :
    stretches pass longest least most text = [] := by
  refine List.eq_nil_iff_forall_not_mem.mpr fun part member => ?_
  obtain ⟨rfl, passed, enough, -⟩ := mem_stretches member
  rw [List.takeWhile_append_of_pos passed, List.length_append] at short
  omega

theorem longest_first (enough : least ≤ (text.takeWhile pass).length)
    (fits : ∀ bound ∈ most, (text.takeWhile pass).length ≤ bound) :
    (stretches pass true least most text).head? =
      some (text.takeWhile pass, text.dropWhile pass) := by
  induction text generalizing least most with
  | nil =>
    have none : least = 0 := by simpa using enough
    simp [stretches, none]
  | cons c rest ih =>
    by_cases passes : pass c = true
    · rw [List.takeWhile_cons_of_pos passes, List.length_cons] at enough fits
      have more : most ≠ some 0 := by
        rintro rfl
        have within := fits 0 rfl
        omega
      have fewer : ∀ bound ∈ most.map (· - 1), (rest.takeWhile pass).length ≤ bound := by
        intro bound isBound
        obtain ⟨wider, isWider, rfl⟩ := Option.map_eq_some_iff.mp isBound
        have within := fits wider isWider
        omega
      have further := ih (Nat.sub_le_of_le_add enough) fewer
      simp [stretches, passes, more, further]
    · rw [List.takeWhile_cons_of_neg passes] at enough
      have none : least = 0 := by simpa using enough
      simp [stretches, passes, none]

section Search

variable {β : Type} {after : List Char → List Char → List β}

theorem followed_eq_nil
    (stuck : ∀ taken c behind, pass c = true → after taken (c :: behind) = [])
    (last : (text.takeWhile pass, text.dropWhile pass) ∈ stretches pass longest least most text →
      after (text.takeWhile pass) (text.dropWhile pass) = []) :
    followed (stretches pass longest least most text) after = [] := by
  refine List.flatMap_eq_nil_iff.mpr fun part member => ?_
  rcases longest_or_short member with rfl | ⟨c, behind, isRest, passes⟩
  · exact last member
  · rw [isRest]
    exact stuck part.1 c behind passes

/-- The longest stretch counts if no other can take its place. -/
theorem head?_longest (enough : least ≤ (text.takeWhile pass).length)
    (fits : ∀ bound ∈ most, (text.takeWhile pass).length ≤ bound)
    (final : after (text.takeWhile pass) (text.dropWhile pass) = [] →
      ∀ taken c behind, pass c = true → after taken (c :: behind) = []) :
    (followed (stretches pass true least most text) after).head? =
      (after (text.takeWhile pass) (text.dropWhile pass)).head? := by
  by_cases fails : after (text.takeWhile pass) (text.dropWhile pass) = []
  · rw [followed_eq_nil (final fails) fun _ => fails, fails]
  · obtain ⟨others, inOrder⟩ := List.head?_eq_some_iff.mp (longest_first enough fits)
    rw [inOrder, followed, List.flatMap_cons, List.head?_append]
    exact Option.or_of_isSome (by simpa using fails)

end Search

end Text

/-! ### Lines -/

namespace Fence

/-- The marks of a fence, written out. -/
def marks (fence : Fence) : List Char :=
  List.replicate fence.length fence.mark

section Patterns

variable {β : Type} {after : List Char → List Char → List β} {line : List Char}

def markings (text : List Char) : List (List Char × List Char) :=
  Text.stretches (· = '`') true 3 none text ++ Text.stretches (· = '~') true 3 none text

/-- The front of a fence line, and what may follow the marks. -/
def fronted (after : List Char → List Char → List β) (line : List Char) : List β :=
  Text.followed (Text.stretches (· = ' ') true 0 (some 3) line) fun _ rest =>
    Text.followed (markings rest) after

/-- Blanks up to the end, or up to a line feed that is the end. -/
def ended (found : β) (text : List Char) : List β :=
  Text.followed (Text.stretches Text.isBlank true 0 none text) fun _ rest =>
    if rest = [] ∨ rest = ['\n'] then [found] else []

/-- Blanks, an info text as short as can be, and blanks up to the end. -/
def informed (found : List Char → β) (text : List Char) : List β :=
  Text.followed (Text.stretches Text.isBlank true 0 none text) fun _ rest =>
    Text.followed (Text.stretches (· ≠ '\n') false 0 none rest) fun info => ended (found info)

def openingMatch (line : List Char) : Option (List Char × List Char) :=
  (fronted (fun found => informed fun info => (found, info)) line).head?

def closingMatch (line : List Char) : Option (List Char) :=
  (fronted ended line).head?

theorem head?_ended (found : β) (text : List Char) :
    (ended found text).head? = if text.all Text.isBlank then some found else none := by
  unfold ended
  split
  · rename_i blank
    have whole := List.dropWhile_eq_nil_iff.mpr (List.all_eq_true.mp blank)
    rw [Text.head?_longest (Nat.zero_le _) (by simp) (by simp [whole])]
    simp [whole]
  · rename_i solid
    rw [Text.followed, List.flatMap_eq_nil_iff.mpr, List.head?_nil]
    intro part member
    refine if_neg fun isEnd => solid ?_
    obtain ⟨rfl, passed, -, -⟩ := Text.mem_stretches member
    have blankFeed : Text.isBlank '\n' = true := rfl
    rcases isEnd with isEnd | isEnd <;> simpa [isEnd, blankFeed] using passed

theorem head?_shortest (found : List Char → β) {text : List Char} (oneLine : '\n' ∉ text) :
    (Text.followed (Text.stretches (· ≠ '\n') false 0 none text) fun info =>
      ended (found info)).head? = some (found (Text.trimRight text)) := by
  induction text generalizing found with
  | nil => simp [Text.followed, Text.stretches, head?_ended, Text.trimRight]
  | cons c rest ih =>
    obtain ⟨other, clean⟩ := not_or.mp (oneLine ∘ List.mem_cons.mpr)
    have further := ih (fun info => found (c :: info)) clean
    simp only [Text.followed, Text.stretches, Ne.symm other, ne_eq, not_false_eq_true, decide_true,
      reduceCtorEq, and_self, if_true, Bool.false_eq_true, if_false, Option.map_none,
      List.singleton_append, List.flatMap_cons, List.flatMap_map, List.head?_append, head?_ended]
    -- the info text ends here if only blanks are left, and else it takes one character more
    by_cases blank : (c :: rest).all Text.isBlank = true
    · rw [if_pos blank, Text.trimRight_of_blank blank, Option.some_or]
    · rw [if_neg blank, Text.trimRight_cons blank, Option.none_or]
      exact further

theorem head?_informed (found : List Char → β) {text : List Char} (oneLine : '\n' ∉ text) :
    (informed found text).head? = some (found (Text.trim text)) := by
  have behind : '\n' ∉ text.dropWhile Text.isBlank :=
    fun member => oneLine ((List.dropWhile_suffix _).subset member)
  have goesOn := head?_shortest found behind
  rw [informed, Text.head?_longest (Nat.zero_le _) (by simp), goesOn]
  · rfl
  · intro fails
    rw [fails] at goesOn
    contradiction

theorem stretches_of_other {c mark : Char} (other : c ≠ mark) (behind : List Char) :
    Text.stretches (· = mark) true 3 none (c :: behind) = [] :=
  Text.stretches_of_short (by simp [other])

theorem markings_of_marked {mark : Char} (isMark : mark = '`' ∨ mark = '~') (behind : List Char) :
    markings (mark :: behind) = Text.stretches (· = mark) true 3 none (mark :: behind) := by
  rcases isMark with rfl | rfl
  · rw [markings, stretches_of_other (show '`' ≠ '~' by decide), List.append_nil]
  · rw [markings, stretches_of_other (show '~' ≠ '`' by decide), List.nil_append]

theorem markings_of_unmarked {c : Char} (unmarked : ¬ (c = '`' ∨ c = '~')) (behind : List Char) :
    markings (c :: behind) = [] := by
  obtain ⟨noTick, noTilde⟩ := not_or.mp unmarked
  rw [markings, stretches_of_other noTick, stretches_of_other noTilde, List.nil_append]

theorem marks_eq (mark : Char) (behind : List Char) :
    marks ⟨mark, (behind.takeWhile (· = mark)).length + 1⟩ = mark :: behind.takeWhile (· = mark) := by
  symm
  refine List.eq_replicate_iff.mpr ⟨rfl, List.forall_mem_cons.mpr ⟨rfl, fun d member => ?_⟩⟩
  simpa using List.all_eq_true.mp List.all_takeWhile d member

theorem head?_markings {mark : Char} (isMark : mark = '`' ∨ mark = '~') {behind : List Char}
    (final : 3 ≤ (behind.takeWhile (· = mark)).length + 1 →
      after (marks ⟨mark, (behind.takeWhile (· = mark)).length + 1⟩)
        (behind.dropWhile (· = mark)) = [] →
      ∀ taken more, after taken (mark :: more) = []) :
    (Text.followed (markings (mark :: behind)) after).head? =
      if 3 ≤ (behind.takeWhile (· = mark)).length + 1 then
        (after (marks ⟨mark, (behind.takeWhile (· = mark)).length + 1⟩)
          (behind.dropWhile (· = mark))).head?
      else none := by
  have taken : (mark :: behind).takeWhile (· = mark) = mark :: behind.takeWhile (· = mark) :=
    List.takeWhile_cons_of_pos (by simp)
  have left : (mark :: behind).dropWhile (· = mark) = behind.dropWhile (· = mark) :=
    List.dropWhile_cons_of_pos (by simp)
  rw [markings_of_marked isMark]
  split
  · rename_i enough
    rw [Text.head?_longest (by rwa [taken]) (by simp), taken, left, ← marks_eq]
    rw [taken, left, ← marks_eq]
    intro fails given c more same
    rw [of_decide_eq_true same]
    exact final enough fails given more
  · rename_i short
    rw [Text.stretches_of_short (by rwa [taken, ← Nat.not_le])]
    rfl

/-- No mark is given back as long as what cannot follow all marks cannot begin with one of them. -/
theorem head?_fronted
    (final : ∀ fence rest, parse? line = some (fence, rest) → after fence.marks rest = [] →
      ∀ taken more, after taken (fence.mark :: more) = []) :
    (fronted after line).head? =
      (parse? line).bind fun parsed => (after parsed.1.marks parsed.2).head? := by
  have unmarked {c : Char} (other : ¬ (c = '`' ∨ c = '~')) (behind : List Char) :
      Text.followed (markings (c :: behind)) after = [] := by
    rw [markings_of_unmarked other]
    rfl
  have stuck : ∀ c behind, decide (c = ' ') = true →
      Text.followed (markings (c :: behind)) after = [] := by
    intro c behind isSpace
    exact unmarked (by simp [of_decide_eq_true isSpace]) behind
  -- no space is given back either: marks cannot begin with one
  have indented : (fronted after line).head? =
      if (line.takeWhile (· = ' ')).length ≤ 3 then
        (Text.followed (markings (line.dropWhile (· = ' '))) after).head?
      else none := by
    unfold fronted
    split
    · rename_i few
      rw [Text.head?_longest (Nat.zero_le _) (by simpa using few) fun _ _ => stuck]
    · rename_i many
      rw [Text.followed_eq_nil fun _ => stuck, List.head?_nil]
      intro member
      exact absurd ((Text.mem_stretches member).2.2.2 3 rfl) many
  rw [indented]
  cases marked : line.dropWhile (· = ' ') with
  | nil => simp [parse?, marked, markings, Text.stretches, Text.followed]
  | cons mark behind =>
    have parsed := parse?_of_marked marked
    by_cases isMark : mark = '`' ∨ mark = '~'
    · by_cases few : (line.takeWhile (· = ' ')).length ≤ 3
      · simp only [few, isMark, true_and] at parsed
        rw [if_pos few, parsed, head?_markings isMark fun enough =>
          final _ _ (parsed.trans (if_pos enough))]
        split <;> rfl
      · simp [parsed, few]
    · simp [parsed, isMark, unmarked isMark]

end Patterns

variable {line : List Char}

theorem openingMatch_eq (oneLine : '\n' ∉ line) :
    openingMatch line = (parse? line).map fun parsed => (parsed.1.marks, Text.trim parsed.2) := by
  have info {fence : Fence} {rest : List Char} (parsed : parse? line = some (fence, rest)) :
      (informed (fun info => (fence.marks, info)) rest).head? =
        some (fence.marks, Text.trim rest) := by
    obtain ⟨-, -, -, spaces, -, isLine⟩ := parse?_eq_some_iff.mp parsed
    exact head?_informed _ fun member => oneLine (by simp [isLine, member])
  rw [openingMatch, head?_fronted]
  · cases parsed : parse? line with
    | none => rfl
    | some parts => exact info parsed
  · intro fence rest parsed fails
    have goesOn := info parsed
    rw [fails] at goesOn
    contradiction

theorem closingMatch_eq (line : List Char) : closingMatch line = (closing? line).map marks := by
  rw [closingMatch, head?_fronted]
  · cases parsed : parse? line with
    | none => simp [closing?, parsed]
    | some parts =>
      simp only [closing?, parsed, head?_ended, Option.bind_some]
      split <;> rfl
  · intro fence rest parsed _ taken more
    obtain ⟨isMark, -, -, -⟩ := parse?_eq_some_iff.mp parsed
    have solid : Text.isBlank fence.mark = false := by
      rcases isMark with isMark | isMark <;> rw [isMark] <;> rfl
    exact List.head?_eq_none_iff.mp (by simp [head?_ended, solid])

/-- Any run of marks will do, as it is part of a whole one. -/
theorem isSome_parse?_iff :
    (parse? line).isSome ↔ ∃ spaces ≤ 3, ∃ count ≥ 3, ∃ mark rest, (mark = '`' ∨ mark = '~') ∧
      line = List.replicate spaces ' ' ++ (List.replicate count mark ++ rest) := by
  rw [Option.isSome_iff_exists]
  constructor
  · rintro ⟨⟨fence, rest⟩, parsed⟩
    obtain ⟨isMark, long, -, spaces, few, isLine⟩ := parse?_eq_some_iff.mp parsed
    exact ⟨spaces, few, fence.length, long, fence.mark, rest, isMark, isLine⟩
  · rintro ⟨spaces, few, count, long, mark, rest, isMark, rfl⟩
    obtain ⟨run, whole⟩ := Text.run_iff.mpr
      ⟨rfl, (rfl : rest.dropWhile (· = mark) = rest.dropWhile (· = mark))⟩
    refine ⟨(⟨mark, count + (rest.takeWhile (· = mark)).length⟩, rest.dropWhile (· = mark)),
      parse?_eq_some_iff.mpr ⟨isMark, Nat.le_add_right_of_le long, whole, spaces, few, ?_⟩⟩
    rw [← List.replicate_append_replicate, List.append_assoc, ← run]

theorem openingMatch_eq_some_iff (oneLine : '\n' ∉ line) (found : List Char × List Char) :
    openingMatch line = some found ↔
      ∃ fence rest, Leads fence rest line ∧ found = (fence.marks, Text.trim rest) := by
  rw [openingMatch_eq oneLine, Option.map_eq_some_iff]
  constructor
  · rintro ⟨⟨fence, rest⟩, parsed, rfl⟩
    exact ⟨fence, rest, parse?_eq_some_iff.mp parsed, rfl⟩
  · rintro ⟨fence, rest, leads, rfl⟩
    exact ⟨(fence, rest), parse?_eq_some_iff.mpr leads, rfl⟩

theorem closingMatch_eq_some_iff {found : List Char} :
    closingMatch line = some found ↔
      ∃ fence rest, Leads fence rest line ∧ rest.all Text.isBlank = true ∧ found = fence.marks := by
  simp only [closingMatch_eq, Option.map_eq_some_iff, closing?_eq_some_iff, List.all_eq_true]
  constructor
  · rintro ⟨fence, ⟨rest, leads, bare⟩, rfl⟩
    exact ⟨fence, rest, leads, bare, rfl⟩
  · rintro ⟨fence, rest, leads, bare, rfl⟩
    exact ⟨fence, ⟨rest, leads, bare⟩, rfl⟩

theorem opening?_eq_filter (line : List Char) :
    opening? line = ((parse? line).map fun parsed => (parsed.1, Text.trim parsed.2)).filter fun found =>
      ¬ (found.1.mark = '`' ∧ '`' ∈ found.2) := by
  unfold opening?
  split
  · rename_i unparsed
    rw [unparsed]
    rfl
  · rename_i parsed
    rw [parsed, Option.map_some, Option.filter_some]
    dsimp only
    split <;> rename_i span
    · rw [if_neg (by simpa using span)]
    · rw [if_pos (decide_eq_true span)]

/-- Both patterns take the whole run of marks. The opening one finds what is behind it without the
blanks around it, and the closing one finds nothing but blanks there. Lines are read accordingly. -/
theorem fence_lines_exact (unbroken : Text.Unbroken line) :
    ((openingMatch line).isSome ↔
      ∃ spaces ≤ 3, ∃ count ≥ 3, ∃ mark rest, (mark = '`' ∨ mark = '~') ∧
        line = List.replicate spaces ' ' ++ (List.replicate count mark ++ rest)) ∧
    (∀ found, openingMatch line = some found ↔
      ∃ fence rest, Leads fence rest line ∧ found = (fence.marks, Text.trim rest)) ∧
    (∀ found, closingMatch line = some found ↔
      ∃ fence rest, Leads fence rest line ∧ rest.all Text.isBlank = true ∧ found = fence.marks) ∧
    (∀ found, closingMatch line = some found → openingMatch line = some (found, [])) ∧
    openingMatch line = (parse? line).map (fun parsed => (parsed.1.marks, Text.trim parsed.2)) ∧
    opening? line = ((parse? line).map fun parsed => (parsed.1, Text.trim parsed.2)).filter
      (fun found => ¬ (found.1.mark = '`' ∧ '`' ∈ found.2)) ∧
    closingMatch line = (closing? line).map marks := by
  have opens := openingMatch_eq_some_iff unbroken.noFeed
  refine ⟨?_, opens, fun _ => closingMatch_eq_some_iff, ?_,
    openingMatch_eq unbroken.noFeed, opening?_eq_filter line, closingMatch_eq line⟩
  · rw [openingMatch_eq unbroken.noFeed, Option.isSome_map, isSome_parse?_iff]
  · intro found closed
    obtain ⟨fence, rest, leads, bare, rfl⟩ := closingMatch_eq_some_iff.mp closed
    refine (opens _).mpr ⟨fence, rest, leads, ?_⟩
    rw [Text.trim, Text.trimLeft, List.dropWhile_eq_nil_iff.mpr (List.all_eq_true.mp bare)]
    rfl

/-- A file separator and an ideographic space are blank, but they do not break the line. -/
theorem fence_lines_exact_of_tildes :
    Text.Unbroken "  ~~~~\u001cr ~\u3000".toList ∧
    openingMatch "  ~~~~\u001cr ~\u3000".toList = some ("~~~~".toList, "r ~".toList) := by
  have unbroken : Text.Unbroken "  ~~~~\u001cr ~\u3000".toList := ⟨by decide, by decide⟩
  have leads : Leads ⟨'~', 4⟩ "\u001cr ~\u3000".toList "  ~~~~\u001cr ~\u3000".toList :=
    ⟨Or.inr rfl, by decide, by decide, 2, by decide, rfl⟩
  exact ⟨unbroken, ((fence_lines_exact unbroken).2.1 _).mpr ⟨_, _, leads, by decide⟩⟩

end Fence

end LanguageBridge
