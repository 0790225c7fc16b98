import LanguageBridge.Text.Lines

namespace LanguageBridge.Text

/-! Splitting a text into lines, and what becomes of lines that were joined. -/

/-- A line that ends nowhere in its middle. -/
structure Unbroken (line : List Char) : Prop where
  noReturn : '\r' ∉ line
  noFeed : '\n' ∉ line

theorem Unbroken.nil : Unbroken [] :=
  ⟨by simp, by simp⟩

theorem unbroken_cons {c : Char} {line : List Char} :
    Unbroken (c :: line) ↔ (c ≠ '\r' ∧ c ≠ '\n') ∧ Unbroken line := by
  constructor
  · rintro ⟨noReturn, noFeed⟩
    simp only [List.mem_cons, not_or] at noReturn noFeed
    exact ⟨⟨Ne.symm noReturn.1, Ne.symm noFeed.1⟩, noReturn.2, noFeed.2⟩
  · rintro ⟨⟨notReturn, notFeed⟩, noReturn, noFeed⟩
    constructor
    · simp [Ne.symm notReturn, noReturn]
    · simp [Ne.symm notFeed, noFeed]

theorem splitCharacters_feed (rest : List Char) :
    splitCharacters ('\n' :: rest) = [] :: splitCharacters rest := by
  simp [splitCharacters]

theorem splitCharacters_cons {c : Char} (plain : c ≠ '\r' ∧ c ≠ '\n') (rest : List Char) :
    splitCharacters (c :: rest) = extendFirst c (splitCharacters rest) := by
  rw [splitCharacters.eq_3 _ _ (fun _ same => absurd same plain.1), if_neg (by simp [plain])]

theorem splitCharacters_unbroken (text : List Char) :
    ∀ line ∈ splitCharacters text, Unbroken line := by
  fun_induction splitCharacters text with
  | case1 =>
    intro line member
    cases List.mem_singleton.mp member
    exact Unbroken.nil
  | case2 rest ih | case3 c rest _ _ ih =>
    intro line member
    rcases List.mem_cons.mp member with same | behind
    · subst same
      exact Unbroken.nil
    · exact ih line behind
  | case4 c rest _ plain ih =>
    have kept : c ≠ '\r' ∧ c ≠ '\n' := not_or.mp plain
    intro line member
    cases split : splitCharacters rest with
    | nil =>
      rw [split, extendFirst, List.mem_singleton] at member
      subst member
      exact unbroken_cons.mpr ⟨kept, Unbroken.nil⟩
    | cons first others =>
      rw [split] at ih
      rw [split, extendFirst, List.mem_cons] at member
      rcases member with same | behind
      · subst same
        exact unbroken_cons.mpr ⟨kept, ih first List.mem_cons_self⟩
      · exact ih line (List.mem_cons_of_mem _ behind)

theorem splitCharacters_single {line : List Char} (unbroken : Unbroken line) :
    splitCharacters line = [line] := by
  induction line with
  | nil => rfl
  | cons c rest ih =>
    obtain ⟨plain, clean⟩ := unbroken_cons.mp unbroken
    rw [splitCharacters_cons plain, ih clean, extendFirst]

theorem splitCharacters_line {line : List Char} (unbroken : Unbroken line) (rest : List Char) :
    splitCharacters (line ++ '\n' :: rest) = line :: splitCharacters rest := by
  induction line with
  | nil => exact splitCharacters_feed rest
  | cons c line ih =>
    obtain ⟨plain, clean⟩ := unbroken_cons.mp unbroken
    rw [List.cons_append, splitCharacters_cons plain, ih clean, extendFirst]

theorem splitCharacters_lines {lines : List (List Char)} (unbroken : ∀ line ∈ lines, Unbroken line) :
    splitCharacters (lines.flatMap (· ++ ['\n'])) = lines ++ [[]] := by
  induction lines with
  | nil => rfl
  | cons line rest ih =>
    have clean := unbroken line List.mem_cons_self
    have later := ih fun other member => unbroken other (List.mem_cons_of_mem _ member)
    rw [List.flatMap_cons, List.append_assoc, List.singleton_append, splitCharacters_line clean,
      later, List.cons_append]

theorem splitLines_unbroken (text : String) :
    ∀ line ∈ splitLines text, Unbroken line.toList := by
  intro line member
  obtain ⟨characters, found, same⟩ := List.mem_map.mp member
  subst same
  simpa using splitCharacters_unbroken text.toList characters found

theorem intercalate_feed {lines : List (List Char)} (nonempty : lines ≠ []) :
    ['\n'].intercalate lines ++ ['\n'] = lines.flatMap (· ++ ['\n']) := by
  induction lines with
  | nil => contradiction
  | cons line rest ih =>
    cases rest with
    | nil => simp
    | cons next others =>
      rw [List.intercalate_cons_cons, List.append_assoc, ih (by simp)]
      rfl

theorem splitLines_joinLines_feed {lines : List String} (nonempty : lines ≠ [])
    (unbroken : ∀ line ∈ lines, Unbroken line.toList) :
    splitLines (joinLines lines ++ "\n") = lines ++ [""] := by
  have characters : (joinLines lines ++ "\n").toList =
      (lines.map String.toList).flatMap (· ++ ['\n']) := by
    rw [← intercalate_feed (by simpa using nonempty)]
    simp [joinLines]
  have clean : ∀ line ∈ lines.map String.toList, Unbroken line := by
    intro line member
    obtain ⟨held, found, same⟩ := List.mem_map.mp member
    subst same
    exact unbroken held found
  rw [splitLines, characters, splitCharacters_lines clean]
  simp

theorem splitLines_joinLines {lines : List String} (nonempty : lines ≠ [])
    (unbroken : ∀ line ∈ lines, Unbroken line.toList) : splitLines (joinLines lines) = lines := by
  have characters : splitCharacters (joinLines lines).toList = lines.map String.toList := by
    induction lines with
    | nil => contradiction
    | cons line rest ih =>
      have clean := unbroken line List.mem_cons_self
      cases rest with
      | nil => simpa [joinLines] using splitCharacters_single clean
      | cons next others =>
        have later := ih (by simp) fun other member =>
          unbroken other (List.mem_cons_of_mem _ member)
        have joined : (joinLines (line :: next :: others)).toList =
            line.toList ++ '\n' :: (joinLines (next :: others)).toList := by
          simp [joinLines]
        rw [joined, splitCharacters_line clean, later]
        rfl
  rw [splitLines, characters]
  simp

end LanguageBridge.Text
