import LanguageBridge.Proofs.Lines

namespace LanguageBridge.Text

/-! Texts taken apart into lines and what ends them. A carriage return does not end a line by itself
if a line feed follows it, so there is one way to do this, and the lines are those that splitting
gives. -/

inductive Ending where
  | lineFeed
  | carriageReturn
  | both
deriving DecidableEq, Repr

def Ending.characters : Ending → List Char
  | lineFeed => ['\n']
  | carriageReturn => ['\r']
  | both => ['\r', '\n']

/-- Lines and endings in turn, lines first. -/
def interleave : List (List Char) → List Ending → List Char
  | line :: lines, ending :: endings => line ++ (ending.characters ++ interleave lines endings)
  | lines, [] => lines.flatten
  | [], endings => endings.flatMap Ending.characters

/-- A text as lines with endings between them. -/
structure Divided (text : List Char) (lines : List (List Char)) (endings : List Ending) : Prop where
  unbroken : ∀ line ∈ lines, Unbroken line
  between : lines.length = endings.length + 1
  apart : ∀ i, endings[i]? = some .carriageReturn → endings[i + 1]? = some .lineFeed →
    lines[i + 1]? ≠ some []
  whole : interleave lines endings = text

variable {text line rest : List Char} {lines : List (List Char)} {ending : Ending}
  {endings : List Ending}

theorem splitCharacters_ending (apart : ending = .carriageReturn → rest.head? ≠ some '\n') :
    splitCharacters (ending.characters ++ rest) = [] :: splitCharacters rest := by
  cases ending with
  | lineFeed => exact splitCharacters_feed rest
  | both => rfl
  | carriageReturn =>
    refine (splitCharacters.eq_3 '\r' rest ?_).trans (if_pos (Or.inl rfl))
    rintro behind - rfl
    exact apart rfl rfl

theorem splitCharacters_ended (unbroken : Unbroken line)
    (apart : ending = .carriageReturn → rest.head? ≠ some '\n') :
    splitCharacters (line ++ (ending.characters ++ rest)) = line :: splitCharacters rest := by
  induction line with
  | nil => exact splitCharacters_ending apart
  | cons c line ih =>
    obtain ⟨plain, clean⟩ := unbroken_cons.mp unbroken
    rw [List.cons_append, splitCharacters_cons plain, ih clean, extendFirst]

namespace Divided

theorem single (unbroken : Unbroken line) : Divided line [line] [] where
  unbroken := by simpa using unbroken
  between := rfl
  apart := by simp
  whole := by simp [interleave]

/-- A text goes on with a line feed only where an empty line ends with one. -/
theorem head_feed_iff (divided : Divided text lines endings) :
    text.head? = some '\n' ↔ lines.head? = some [] ∧ endings.head? = some .lineFeed := by
  obtain ⟨unbroken, between, -, rfl⟩ := divided
  cases lines with
  | nil => simp at between
  | cons line others =>
    cases line with
    | cons c more =>
      have plain := (unbroken_cons.mp (unbroken _ List.mem_cons_self)).1
      cases endings <;> simp [interleave, plain.2]
    | nil =>
      cases endings with
      | nil =>
        have alone : others = [] := by simpa using between
        simp [alone, interleave]
      | cons ending endings => cases ending <;> simp [interleave, Ending.characters]

theorem cons (unbroken : Unbroken line) (ending : Ending) (later : Divided rest lines endings)
    (apart : ending = .carriageReturn → rest.head? ≠ some '\n') :
    Divided (line ++ (ending.characters ++ rest)) (line :: lines) (ending :: endings) where
  unbroken := List.forall_mem_cons.mpr ⟨unbroken, later.unbroken⟩
  between := congrArg (· + 1) later.between
  apart := by
    intro i returns feeds empty
    cases i with
    | succ i => exact later.apart i returns feeds empty
    | zero =>
      refine apart (Option.some.inj returns) (later.head_feed_iff.mpr ⟨?_, ?_⟩)
      · simpa [List.head?_eq_getElem?] using empty
      · simpa [List.head?_eq_getElem?] using feeds
  whole := by rw [interleave, later.whole]

theorem tail (divided : Divided text (line :: lines) (ending :: endings)) :
    ∃ rest, text = line ++ (ending.characters ++ rest) ∧ Divided rest lines endings ∧
      (ending = .carriageReturn → rest.head? ≠ some '\n') := by
  obtain ⟨unbroken, between, apart, rfl⟩ := divided
  have later : Divided (interleave lines endings) lines endings :=
    ⟨(List.forall_mem_cons.mp unbroken).2, Nat.succ.inj between, fun i => apart (i + 1), rfl⟩
  refine ⟨_, rfl, later, ?_⟩
  rintro rfl feeds
  obtain ⟨empty, feed⟩ := later.head_feed_iff.mp feeds
  exact apart 0 rfl (by simpa [List.head?_eq_getElem?] using feed)
    (by simpa [List.head?_eq_getElem?] using empty)

/-- A character that ends no line belongs to the first one. -/
theorem extend {c : Char} (plain : c ≠ '\r' ∧ c ≠ '\n') (divided : Divided text lines endings) :
    Divided (c :: text) (extendFirst c lines) endings := by
  obtain ⟨unbroken, between, apart, rfl⟩ := divided
  cases lines with
  | nil => simp at between
  | cons line others =>
    have clean := List.forall_mem_cons.mp unbroken
    refine ⟨List.forall_mem_cons.mpr ⟨unbroken_cons.mpr ⟨plain, clean.1⟩, clean.2⟩, between, apart, ?_⟩
    cases endings <;> simp [interleave, extendFirst]

end Divided

theorem splitCharacters_of_divided (divided : Divided text lines endings) :
    splitCharacters text = lines := by
  induction endings generalizing text lines with
  | nil =>
    obtain ⟨line, rfl⟩ := List.length_eq_one_iff.mp divided.between
    rw [← divided.whole]
    simpa [interleave] using splitCharacters_single (divided.unbroken line List.mem_cons_self)
  | cons ending endings ih =>
    cases lines with
    | nil => simpa using divided.between
    | cons line lines =>
      obtain ⟨rest, rfl, later, apart⟩ := divided.tail
      rw [splitCharacters_ended (divided.unbroken line List.mem_cons_self) apart, ih later]

theorem exists_divided (text : List Char) :
    ∃ endings, Divided text (splitCharacters text) endings := by
  fun_induction splitCharacters text with
  | case1 => exact ⟨[], .single .nil⟩
  | case2 rest ih =>
    obtain ⟨endings, divided⟩ := ih
    exact ⟨.both :: endings, .cons .nil .both divided (by simp)⟩
  | case3 c rest alone ends ih =>
    obtain ⟨endings, divided⟩ := ih
    rcases ends with rfl | rfl
    · refine ⟨.carriageReturn :: endings, .cons .nil .carriageReturn divided fun _ feeds => ?_⟩
      obtain ⟨behind, rfl⟩ := List.head?_eq_some_iff.mp feeds
      exact alone behind rfl rfl
    · exact ⟨.lineFeed :: endings, .cons .nil .lineFeed divided (by simp)⟩
  | case4 c rest _ plain ih =>
    obtain ⟨endings, divided⟩ := ih
    exact ⟨endings, divided.extend (not_or.mp plain)⟩

/-- Splitting a text gives the lines that it is made of, and joining lines is undone by it. -/
theorem splitLines_exact (text : String) (lines : List String) :
    (splitLines text = lines ↔ ∃ endings, Divided text.toList (lines.map String.toList) endings) ∧
    (lines ≠ [] → (∀ line ∈ lines, Unbroken line.toList) → splitLines (joinLines lines) = lines) := by
  refine ⟨⟨?_, ?_⟩, splitLines_joinLines⟩
  · rintro rfl
    simpa [splitLines, Function.comp_def] using exists_divided text.toList
  · rintro ⟨endings, divided⟩
    rw [splitLines, splitCharacters_of_divided divided]
    simp [Function.comp_def]

/-- Two returns, of which the second goes with a line feed, and a line feed before a return. -/
theorem splitLines_exact_of_mixed_endings :
    (∃ endings, Divided "a\r\r\n\n\rb".toList [['a'], [], [], [], ['b']] endings) ∧
    splitLines (joinLines ["a", "", "", "", "b"]) = ["a", "", "", "", "b"] := by
  have splits := splitLines_exact "a\r\r\n\n\rb" ["a", "", "", "", "b"]
  refine ⟨splits.1.mp (by decide), splits.2 (by decide) ?_⟩
  simp [Unbroken.nil, unbroken_cons]

end LanguageBridge.Text
