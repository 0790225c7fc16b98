import LanguageBridge.Proofs.Store.Versions

namespace LanguageBridge

/-! The languages of chunks have names, as long as no short name stands for nothing and no rule is
without a language. -/

namespace Text

theorem mem_trimLeft {text : List Char} {c : Char} (member : c ∈ text) (plain : isBlank c = false) :
    c ∈ trimLeft text := by
  unfold trimLeft
  induction text with
  | nil => contradiction
  | cons head rest ih =>
    rw [List.dropWhile_cons]
    split
    · rename_i blank
      rcases List.mem_cons.mp member with rfl | behind
      · rw [plain] at blank
        contradiction
      · exact ih behind
    · exact member

theorem trim_ne_nil {text : List Char} {c : Char} (member : c ∈ text) (plain : isBlank c = false) :
    trim text ≠ [] := by
  have fromLeft := mem_trimLeft member plain
  have fromRight := mem_trimLeft (List.mem_reverse.mpr fromLeft) plain
  exact List.ne_nil_of_mem (List.mem_reverse.mpr fromRight)

theorem lowercase_ne_nil {text : List Char} (given : text ≠ []) : lowercase text ≠ [] := by
  unfold lowercase
  fun_cases lowercaseAfter [] text <;> simp_all

end Text

/-! ### Names -/

/-- No short name stands for nothing. -/
def LanguageNames.Filled (names : LanguageNames) : Prop :=
  ∀ name language, names.get? name = some language → language ≠ ""

theorem LanguageNames.standard_filled : standard.Filled := by
  intro name language found
  have given : ∀ entry ∈ standard.entries, entry.2 ≠ "" := by decide
  exact given _ (Table.mem_entries_of_get? found)

theorem LanguageNames.Filled.resolve {names : LanguageNames} (filled : names.Filled)
    {name : List Char} (given : Text.trim name ≠ []) : names.resolve name ≠ "" := by
  simp only [LanguageNames.resolve]
  cases known : names.get? (String.ofList (Text.lowercase (Text.trim name))) with
  | some language => exact filled _ language known
  | none =>
    intro nameless
    have empty := congrArg String.toList nameless
    rw [Option.getD_none, String.toList_ofList] at empty
    exact Text.lowercase_ne_nil given empty

namespace Fence

theorem infoName_plain (info : List Char) : ∀ c ∈ infoName info, Text.isBlank c = false := by
  intro c member
  unfold infoName at member
  split at member
  · contradiction
  · have kept := List.all_eq_true.mp List.all_takeWhile c member
    simp only [Bool.not_eq_true', Bool.or_eq_false_iff] at kept
    exact kept.1.1
  · have inWord := (List.dropWhile_suffix _).subset member
    simpa using List.all_eq_true.mp List.all_takeWhile c inWord

theorem languageOf_named {names : LanguageNames} (filled : names.Filled) {info : List Char}
    {language : String} (named : languageOf names info = some language) : language ≠ "" := by
  unfold languageOf at named
  split at named
  · contradiction
  · rename_i name given
    cases named
    obtain ⟨c, rest, isName⟩ := List.exists_cons_of_ne_nil given
    have plain := infoName_plain info c (by rw [isName]; exact List.mem_cons_self)
    exact filled.resolve (Text.trim_ne_nil (isName ▸ List.mem_cons_self) plain)

end Fence

/-- A rule that says which language it finds. -/
def Rule.Named : Rule → Prop
  | fence => True
  | tag rule => Text.trim rule.language.toList ≠ []

theorem Rule.Named.scan {rule : Rule} (named : rule.Named) {names : LanguageNames}
    (filled : names.Filled) (lines : List (List Char)) :
    ∀ region ∈ (rule.scan names lines).regions, region.language ≠ "" := by
  intro region member
  cases rule with
  | fence =>
    obtain ⟨marker, closer, fence, info, language, -, -, isNamed, -, rfl⟩ :=
      (Fence.scan_structured names lines).of_mem_regions member
    exact Fence.languageOf_named filled isNamed
  | tag rule =>
    obtain ⟨opened, closed, rfl, -⟩ := TagRule.mem_regions_scan member
    exact filled.resolve named

theorem Rule.forLanguageId_named (languageId : Option String) :
    ∀ rule ∈ forLanguageId languageId, rule.Named := by
  unfold forLanguageId
  split
  · simp only [html, List.mem_cons, List.not_mem_nil, or_false]
    intro rule known
    rcases known with rfl | rfl
    · exact (by decide : Text.trim "javascript".toList ≠ [])
    · exact (by decide : Text.trim "css".toList ≠ [])
  · intro rule known
    rw [List.mem_singleton.mp known]
    trivial

namespace Extraction

theorem languages_named {rules : List Rule} (named : ∀ rule ∈ rules, rule.Named)
    {names : LanguageNames} (filled : names.Filled) (text : String) :
    ∀ language ∈ (ofText rules names text).languages, language ≠ "" := by
  intro language member
  obtain ⟨chunk, inChunks, rfl⟩ := mem_languages.mp member
  obtain ⟨region, inRegions, rfl⟩ := exists_region_of_mem_accept _ _ chunk inChunks
  obtain ⟨findings, found, inside⟩ := List.mem_flatMap.mp (List.mem_mergeSort.mp inRegions)
  obtain ⟨rule, inRules, rfl⟩ := List.mem_map.mp found
  exact (named rule inRules).scan filled _ region inside

end Extraction

/-! ### Hosts -/

namespace Store

/-- The names and rules of a store give every chunk a language. -/
structure NamesAll (store : Store) : Prop where
  names : store.names.Filled
  rules : ∀ rules, store.rules = some rules → ∀ rule ∈ rules, rule.Named

variable {store : Store}

theorem NamesAll.extract (namesAll : store.NamesAll) (text : String) (languageId : Option String) :
    ∀ language ∈ (store.extract text languageId).languages, language ≠ "" := by
  refine Extraction.languages_named ?_ namesAll.names text
  intro rule member
  cases given : store.rules with
  | none => exact Rule.forLanguageId_named languageId rule (by simpa [rulesFor, given] using member)
  | some rules => exact namesAll.rules rules given rule (by simpa [rulesFor, given] using member)

theorem NamesAll.openHost (namesAll : store.NamesAll) (uri text : String)
    (languageId : Option String) :
    ∀ language ∈ (store.openHost uri text languageId).languages uri, language ≠ "" := by
  rw [openHost_eq, languages_putHost, openedHost, Host.rebuildAll_extraction]
  exact namesAll.extract text languageId

theorem NamesAll.update (namesAll : store.NamesAll) (uri text : String)
    (changed : Option LineRange) :
    ∀ language ∈ (store.update uri text changed).languages uri, language ≠ "" := by
  cases tracked : store.hosts.get? uri with
  | none =>
    simp only [Store.update, tracked]
    exact namesAll.openHost uri text none
  | some old =>
    rw [update_eq tracked, languages_putHost, updatedHost, Host.rebuildAll_extraction]
    exact namesAll.extract text old.languageId

end Store

end LanguageBridge
