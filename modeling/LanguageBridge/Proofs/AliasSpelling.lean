import LanguageBridge.Proofs.Spelling

namespace LanguageBridge

/-! The texts that are aliases, and what they are aliases of. -/

namespace Alias

open Text

/-! ### The parts of an alias -/

section Cuts

variable {α : Type} [DecidableEq α] {head text hostPart languagePart : List α} {slash : α}

theorem dropExact?_eq_some {expected rest : List α} :
    dropExact? expected text = some rest ↔ text = expected ++ rest := by
  fun_induction dropExact? expected text with
  | case1 text => simp [eq_comm]
  | case2 => simp
  | case3 e expected text ih => simp [ih]
  | case4 e expected c text different => simp [Ne.symm different]

/-- A text that begins like an alias, cut at the first slash behind that. -/
structure Cut (head : List α) (slash : α) (text hostPart languagePart : List α) : Prop where
  whole : text = head ++ (hostPart ++ slash :: languagePart)
  first : slash ∉ hostPart

theorem takeWhile_slash (first : slash ∉ hostPart) (rest : List α) :
    (hostPart ++ slash :: rest).takeWhile (· ≠ slash) = hostPart := by
  rw [List.takeWhile_append_of_pos, List.takeWhile_cons_of_neg (by simp), List.append_nil]
  intro c member
  rw [decide_eq_true_eq]
  rintro rfl
  exact first member

theorem dropWhile_slash (first : slash ∉ hostPart) (rest : List α) :
    (hostPart ++ slash :: rest).dropWhile (· ≠ slash) = slash :: rest := by
  rw [List.dropWhile_append_of_pos, List.dropWhile_cons_of_neg (by simp)]
  intro c member
  rw [decide_eq_true_eq]
  rintro rfl
  exact first member

theorem append_slash_inj {other rest otherRest : List α} (first : slash ∉ hostPart)
    (firstToo : slash ∉ other) :
    hostPart ++ slash :: rest = other ++ slash :: otherRest ↔ hostPart = other ∧ rest = otherRest := by
  constructor
  · intro same
    have before := congrArg (List.takeWhile (· ≠ slash)) same
    have behind := congrArg (List.dropWhile (· ≠ slash)) same
    rw [takeWhile_slash first, takeWhile_slash firstToo] at before
    rw [dropWhile_slash first, dropWhile_slash firstToo] at behind
    exact ⟨before, (List.cons.inj behind).2⟩
  · rintro ⟨rfl, rfl⟩
    rfl

theorem cut_of_dropWhile {body : List α} {c : α} (begins : dropExact? head text = some body)
    (behind : body.dropWhile (· ≠ slash) = c :: languagePart) :
    Cut head slash text (body.takeWhile (· ≠ slash)) languagePart := by
  have isSlash : c = slash := by
    have held := List.head?_dropWhile_not (fun c : α => decide (c ≠ slash)) body
    rw [behind] at held
    simpa using held
  subst isSlash
  refine ⟨?_, fun member => ?_⟩
  · rw [dropExact?_eq_some.mp begins, ← behind, List.takeWhile_append_dropWhile]
  · have held := List.all_eq_true.mp List.all_takeWhile c member
    simp at held

end Cuts

namespace Cut

variable {uri : String} {hostPart languagePart : List Char}

theorem parse? (cut : Cut scheme.toList '/' uri.toList hostPart languagePart) :
    parse? uri =
      if hostPart = [] ∨ languagePart = [] then none
      else
        match spelledText? hostPart, spelledText? languagePart with
        | some host, some language => some ⟨host, language⟩
        | _, _ => none := by
  rw [Alias.parse?, cut.whole, dropExact?_append]
  dsimp only
  rewrite [takeWhile_slash cut.first, dropWhile_slash cut.first]
  rfl

theorem eq_text (cut : Cut scheme.toList '/' uri.toList hostPart languagePart) :
    uri = scheme ++ String.ofList hostPart ++ "/" ++ String.ofList languagePart := by
  rw [← String.toList_inj, cut.whole]
  simp

end Cut

theorem cut_of_parse? {uri : String} {found : Alias} (read : parse? uri = some found) :
    ∃ hostPart languagePart, Cut scheme.toList '/' uri.toList hostPart languagePart := by
  unfold parse? at read
  split at read
  · contradiction
  · rename_i begins
    dsimp only at read
    split at read
    · contradiction
    · rename_i behind
      exact ⟨_, _, cut_of_dropWhile begins behind⟩

theorem cut_text {hostPart : List Char} (first : '/' ∉ hostPart) (languagePart : List Char) :
    Cut scheme.toList '/'
      (scheme ++ String.ofList hostPart ++ "/" ++ String.ofList languagePart).toList hostPart
      languagePart :=
  ⟨by simp, first⟩

/-! ### What is read -/

theorem spelling_eq_nil {spelling : List Char} {text : String}
    (spells : Spells spelling text.toUTF8.data.toList) : spelling = [] ↔ text = "" := by
  constructor
  · rintro rfl
    have isText := spelledText?_eq_some.mpr spells
    have isBlank : spelledText? [] = some "" := by decide
    exact Option.some.inj (isText.symm.trans isBlank)
  · rintro rfl
    cases spells
    rfl

theorem parse?_eq_some {uri host language : String} :
    parse? uri = some ⟨host, language⟩ ↔
      (host ≠ "" ∧ language ≠ "") ∧ ∃ hostPart languagePart,
        Spells hostPart host.toUTF8.data.toList ∧ Spells languagePart language.toUTF8.data.toList ∧
          uri = scheme ++ String.ofList hostPart ++ "/" ++ String.ofList languagePart := by
  constructor
  · intro read
    obtain ⟨hostPart, languagePart, cut⟩ := cut_of_parse? read
    rw [cut.parse?] at read
    split at read
    · contradiction
    · rename_i given
      split at read
      · rename_i isHost isLanguage
        cases read
        rw [spelledText?_eq_some] at isHost isLanguage
        rw [spelling_eq_nil isHost, spelling_eq_nil isLanguage, not_or] at given
        exact ⟨given, hostPart, languagePart, isHost, isLanguage, cut.eq_text⟩
      · contradiction
  · rintro ⟨given, hostPart, languagePart, isHost, isLanguage, rfl⟩
    rw [← not_or, ← spelling_eq_nil isHost, ← spelling_eq_nil isLanguage] at given
    rw [(cut_text isHost.no_slash languagePart).parse?, if_neg given]
    simp only [spelledText?_eq_some.mpr isHost, spelledText?_eq_some.mpr isLanguage]

/-- An alias is longer than the host in it. -/
theorem host_ne_of_parse? {uri : String} {found : Alias} (read : parse? uri = some found) :
    found.host ≠ uri := by
  obtain ⟨host, language⟩ := found
  obtain ⟨_, hostPart, languagePart, spells, _, isUri⟩ := parse?_eq_some.mp read
  intro same
  have shorter := spells.length_le
  have size : host.toUTF8.data.toList.length = host.utf8ByteSize := by
    simp [← String.size_toByteArray, String.toUTF8]
  have longer := congrArg String.utf8ByteSize (same.trans isUri)
  have marked : scheme.utf8ByteSize = 8 := by decide
  simp only [String.utf8ByteSize_append, marked] at longer
  omega

theorem reencoded_iff {hostPart : List Char} (first : '/' ∉ hostPart) (languagePart : List Char) :
    scheme ++ percentEncode (percentDecode (String.ofList hostPart)) ++ "/" ++
          percentEncode (percentDecode (String.ofList languagePart)) =
        scheme ++ String.ofList (normalizeEscapes (hostPart ++ '/' :: languagePart)) ↔
      (∃ host, spelledText? hostPart = some host) ∧
        ∃ language, spelledText? languagePart = some language := by
  rw [← percentEncode_percentDecode, ← percentEncode_percentDecode, normalizeEscapes_slash,
    ← append_slash_inj (slash_not_mem_percentEncode _) (slash_not_mem_normalizeEscapes first),
    ← String.toList_inj]
  simp only [String.toList_append, String.toList_ofList, List.append_assoc,
    List.append_cancel_left_eq]
  rfl

end Alias

end LanguageBridge
