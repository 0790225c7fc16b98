import LanguageBridge.Region.Fence

namespace LanguageBridge

/-! The names of languages in info texts. A name may stand by itself, behind a dot or in braces, and more
may follow; all these ways of writing it lead to the same language. -/

namespace Text

/-- A text that is at its end, or goes on with a character that does not pass a test. -/
def Stops (pass : Char → Bool) (text : List Char) : Prop :=
  ∀ c, text.head? = some c → pass c = false

section Stops

variable {pass : Char → Bool} {front text : List Char}

theorem Stops.takeWhile (stops : Stops pass text) : text.takeWhile pass = [] := by
  cases text with
  | nil => rfl
  | cons c rest => exact List.takeWhile_cons_of_neg (by simp [stops c rfl])

theorem Stops.dropWhile (stops : Stops pass text) : text.dropWhile pass = text := by
  cases text with
  | nil => rfl
  | cons c rest => exact List.dropWhile_cons_of_neg (by simp [stops c rfl])

theorem Stops.append (stops : Stops pass front) (given : front ≠ []) (rest : List Char) :
    Stops pass (front ++ rest) := by
  obtain ⟨c, more, rfl⟩ := List.exists_cons_of_ne_nil given
  exact stops

theorem Stops.of_isPrefix (stops : Stops pass text) (isFront : front <+: text) :
    Stops pass front := by
  obtain ⟨rest, rfl⟩ := isFront
  intro c isFirst
  refine stops c ?_
  rw [List.head?_append, isFirst, Option.some_or]

theorem stops_of_all_fail (fail : ∀ c ∈ text, pass c = false) : Stops pass text := by
  intro c isFirst
  exact fail c (List.mem_of_mem_head? isFirst)

theorem takeWhile_of_stops (passed : ∀ c ∈ front, pass c = true) (stops : Stops pass text) :
    (front ++ text).takeWhile pass = front := by
  rw [List.takeWhile_append_of_pos passed, stops.takeWhile, List.append_nil]

theorem dropWhile_of_stops (passed : ∀ c ∈ front, pass c = true) (stops : Stops pass text) :
    (front ++ text).dropWhile pass = text := by
  rw [List.dropWhile_append_of_pos passed, stops.dropWhile]

end Stops

theorem trimRight_isPrefix (text : List Char) : trimRight text <+: text := by
  have isSuffix : text.reverse.dropWhile isBlank <:+ text.reverse := List.dropWhile_suffix isBlank
  simpa [trimRight] using List.reverse_prefix.mpr isSuffix

theorem trimRight_append {core : List Char} (solid : Stops isBlank core.reverse)
    (rest : List Char) : trimRight (core ++ rest) = core ++ trimRight rest := by
  unfold trimRight
  rw [List.reverse_append, List.dropWhile_append]
  split
  · rename_i blank
    rw [solid.dropWhile, List.isEmpty_iff.mp blank, List.reverse_nil, List.append_nil,
      List.reverse_reverse]
  · rw [List.reverse_append, List.reverse_reverse]

/-- Blanks at the ends go, and a part without blanks at its own ends stays. -/
theorem trim_around {before core : List Char} (blank : ∀ c ∈ before, isBlank c = true)
    (first : Stops isBlank core) (last : Stops isBlank core.reverse) (given : core ≠ [])
    (rest : List Char) : trim (before ++ (core ++ rest)) = core ++ trimRight rest := by
  rw [trim, trimLeft, dropWhile_of_stops blank (first.append given rest), trimRight_append last]

end Text

namespace Fence

/-- A name that is of one piece in any info text. -/
structure PlainName (name : List Char) : Prop where
  given : name ≠ []
  whole : ∀ c ∈ name, Text.isBlank c = false ∧ c ≠ ',' ∧ c ≠ '}'
  undotted : name.head? ≠ some '.'
  unbraced : name.head? ≠ some '{'

/-- The ways of writing a name in an info text, with some blanks and with any text behind it. -/
def spellings (name blanks rest : List Char) : List (List Char) :=
  [name,
   '.' :: name,
   name ++ (blanks ++ rest),
   '{' :: (name ++ ['}']),
   '{' :: '.' :: (name ++ ['}']),
   '{' :: (name ++ ',' :: rest),
   '{' :: (name ++ (blanks ++ rest)),
   '{' :: (blanks ++ (name ++ ['}']))]

/-- What a name in braces may go on with. -/
def inName (c : Char) : Bool :=
  !(Text.isBlank c || c = ',' || c = '}')

theorem infoName_of_brace {info body : List Char} (trimmed : Text.trim info = '{' :: body) :
    infoName info =
      (if (Text.trimLeft body).head? = some '.' then (Text.trimLeft body).tail
        else Text.trimLeft body).takeWhile inName := by
  unfold infoName
  rw [trimmed]
  rfl

theorem infoName_of_word {info text : List Char} (trimmed : Text.trim info = text)
    (unbraced : text.head? ≠ some '{') :
    infoName info = (Text.firstWord text).dropWhile (· = '.') := by
  unfold infoName
  rw [trimmed]
  split
  · rfl
  · exact absurd rfl unbraced
  · rfl

namespace PlainName

variable {name before behind : List Char} (plain : PlainName name)
include plain

theorem first_solid : Text.Stops Text.isBlank name :=
  Text.stops_of_all_fail fun c member => (plain.whole c member).1

theorem last_solid (lead : List Char) : Text.Stops Text.isBlank (lead ++ name).reverse := by
  have solid : Text.Stops Text.isBlank name.reverse :=
    Text.stops_of_all_fail fun c member => (plain.whole c (List.mem_reverse.mp member)).1
  rw [List.reverse_append]
  exact solid.append (by simpa using plain.given) _

theorem stops_dot : Text.Stops (· = '.') name := by
  intro c isFirst
  have other : c ≠ '.' := fun same => plain.undotted (same ▸ isFirst)
  simpa using other

/-- Outside of braces dots may come before the name, and it ends at a blank. -/
theorem infoName_unbraced (lead : List Char) (blank : ∀ c ∈ before, Text.isBlank c = true)
    (dotted : ∀ c ∈ lead, c = '.') (ended : Text.Stops (fun c => !Text.isBlank c) behind) :
    infoName (before ++ (lead ++ name ++ behind)) = name := by
  have given : lead ++ name ≠ [] := by simp [plain.given]
  have solid : ∀ c ∈ lead ++ name, Text.isBlank c = false := by
    intro c member
    rcases List.mem_append.mp member with inLead | inName
    · rw [dotted c inLead]
      rfl
    · exact (plain.whole c inName).1
  have first := Text.stops_of_all_fail solid
  have unbraced : (lead ++ name ++ Text.trimRight behind).head? ≠ some '{' := by
    cases lead with
    | nil =>
      obtain ⟨c, rest, rfl⟩ := List.exists_cons_of_ne_nil plain.given
      exact plain.unbraced
    | cons c rest => simp [dotted c List.mem_cons_self]
  have word : Text.firstWord (lead ++ name ++ Text.trimRight behind) = lead ++ name := by
    rw [Text.firstWord, Text.trimLeft, (first.append given _).dropWhile]
    refine Text.takeWhile_of_stops ?_ (ended.of_isPrefix (Text.trimRight_isPrefix behind))
    intro c member
    simp [solid c member]
  rw [infoName_of_word (Text.trim_around blank first (plain.last_solid lead) given behind) unbraced,
    word]
  exact Text.dropWhile_of_stops (by simpa using dotted) plain.stops_dot

/-- In braces blanks and a dot may come before the name, and it ends at a blank, a comma or the closing
brace. -/
theorem infoName_braced (blanks lead : List Char) (blank : ∀ c ∈ before, Text.isBlank c = true)
    (indented : ∀ c ∈ blanks, Text.isBlank c = true) (dotted : lead = [] ∨ lead = ['.'])
    (ended : Text.Stops inName behind) :
    infoName (before ++ '{' :: (blanks ++ (lead ++ (name ++ behind)))) = name := by
  have last := plain.last_solid ('{' :: (blanks ++ lead))
  have trimmed : Text.trim (before ++ ('{' :: (blanks ++ lead) ++ name ++ behind)) =
      '{' :: (blanks ++ lead) ++ name ++ Text.trimRight behind :=
    Text.trim_around blank (by rintro c ⟨⟩; rfl) last (by simp) behind
  have body : Text.trim (before ++ '{' :: (blanks ++ (lead ++ (name ++ behind)))) =
      '{' :: (blanks ++ (lead ++ (name ++ Text.trimRight behind))) := by
    simpa using trimmed
  have inside : ∀ c ∈ name, inName c = true := by
    intro c member
    simp [inName, plain.whole c member]
  have word : (name ++ Text.trimRight behind).takeWhile inName = name :=
    Text.takeWhile_of_stops inside (ended.of_isPrefix (Text.trimRight_isPrefix behind))
  rw [infoName_of_brace body]
  rcases dotted with rfl | rfl
  · have start : Text.trimLeft (blanks ++ ([] ++ (name ++ Text.trimRight behind))) =
        name ++ Text.trimRight behind :=
      Text.dropWhile_of_stops indented (plain.first_solid.append plain.given _)
    have undotted : (name ++ Text.trimRight behind).head? ≠ some '.' := by
      obtain ⟨c, rest, rfl⟩ := List.exists_cons_of_ne_nil plain.given
      exact plain.undotted
    rw [start, if_neg undotted, word]
  · have start : Text.trimLeft (blanks ++ (['.'] ++ (name ++ Text.trimRight behind))) =
        '.' :: (name ++ Text.trimRight behind) :=
      Text.dropWhile_of_stops indented (by rintro c ⟨⟩; rfl)
    rw [start, List.head?_cons, if_pos rfl, List.tail_cons, word]

theorem languageOf_eq {info : List Char} (names : LanguageNames) (named : infoName info = name) :
    languageOf names info = some (names.resolve name) := by
  unfold languageOf
  rw [named]
  split
  · exact absurd rfl plain.given
  · rfl

end PlainName

/-- However a name is written, and whatever blanks stand around it, it stands for one language. -/
theorem languageOf_spelling (names : LanguageNames) {name blanks before after : List Char}
    (plain : PlainName name) (spaced : blanks ≠ [])
    (blank : ∀ c ∈ before ++ blanks ++ after, Text.isBlank c = true) (rest : List Char) :
    ∀ info ∈ spellings name blanks rest,
      languageOf names (before ++ info ++ after) = some (names.resolve name) := by
  have blankBefore : ∀ c ∈ before, Text.isBlank c = true := fun c member => blank c (by simp [member])
  have indented : ∀ c ∈ blanks, Text.isBlank c = true := fun c member => blank c (by simp [member])
  have blankAfter : ∀ c ∈ after, Text.isBlank c = true := fun c member => blank c (by simp [member])
  -- a blank ends the name in and out of braces
  have endsWord : Text.Stops (fun c => !Text.isBlank c) (blanks ++ (rest ++ after)) :=
    (Text.stops_of_all_fail fun c member => by simp [indented c member]).append spaced _
  have endsName : Text.Stops inName (blanks ++ (rest ++ after)) :=
    (Text.stops_of_all_fail fun c member => by simp [inName, indented c member]).append spaced _
  have endsHere : Text.Stops (fun c => !Text.isBlank c) after :=
    Text.stops_of_all_fail fun c member => by simp [blankAfter c member]
  have closed : Text.Stops inName ('}' :: after) := by
    rintro c ⟨⟩
    rfl
  have parted : Text.Stops inName (',' :: (rest ++ after)) := by
    rintro c ⟨⟩
    rfl
  intro info member
  refine plain.languageOf_eq names ?_
  simp only [spellings, List.mem_cons, List.not_mem_nil, or_false] at member
  rcases member with rfl | rfl | rfl | rfl | rfl | rfl | rfl | rfl
  · simpa using plain.infoName_unbraced [] blankBefore (by simp) endsHere
  · simpa using plain.infoName_unbraced ['.'] blankBefore (by simp) endsHere
  · simpa using plain.infoName_unbraced [] blankBefore (by simp) endsWord
  · simpa using plain.infoName_braced [] [] blankBefore (by simp) (Or.inl rfl) closed
  · simpa using plain.infoName_braced [] ['.'] blankBefore (by simp) (Or.inr rfl) closed
  · simpa using plain.infoName_braced [] [] blankBefore (by simp) (Or.inl rfl) parted
  · simpa using plain.infoName_braced [] [] blankBefore (by simp) (Or.inl rfl) endsName
  · simpa using plain.infoName_braced blanks [] blankBefore indented (Or.inl rfl) closed

/-- A short name in capitals, with a tab and an ideographic space for blanks. -/
theorem languageOf_spelling_of_short_name :
    PlainName ['P', 'Y'] ∧
    ∀ info ∈ spellings ['P', 'Y'] ['\t', '\u3000'] "echo=FALSE\x7d".toList,
      languageOf .standard ([' '] ++ info ++ ['\u3000']) = some "python" := by
  have plain : PlainName ['P', 'Y'] := ⟨by decide, by simp [Text.isBlank], by decide, by decide⟩
  have resolved : LanguageNames.standard.resolve ['P', 'Y'] = "python" := by decide
  refine ⟨plain, fun info member => ?_⟩
  rw [← resolved]
  exact languageOf_spelling .standard plain (by decide) (by simp [Text.isBlank]) _ info member

end Fence

end LanguageBridge
