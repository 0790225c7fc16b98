import LanguageBridge.Proofs.Alias
import LanguageBridge.Proofs.Utf8

namespace LanguageBridge

/-! How a text may be spelled by unreserved characters and escapes. A spelling is one exactly if
decoding it, with replacements where that fails, and encoding the result gives it again, up to the
normal form of escapes. -/

namespace Text

/-- Characters that spell bytes, one after the other. -/
inductive Spells : List Char → List UInt8 → Prop where
  | nil : Spells [] []
  | plain {c : Char} {rest : List Char} {bytes : List UInt8} (unreserved : isUnreserved c = true)
      (others : Spells rest bytes) : Spells (c :: rest) (UInt8.ofNat c.toNat :: bytes)
  | escape {high low : Char} {byte : UInt8} {rest : List Char} {bytes : List UInt8}
      (digits : hexByte? high low = some byte) (others : Spells rest bytes) :
      Spells ('%' :: high :: low :: rest) (byte :: bytes)

theorem isUnreserved_ascii {c : Char} (unreserved : isUnreserved c = true) : c.toNat < 0x80 := by
  simp only [isUnreserved, Bool.or_eq_true, Bool.and_eq_true, decide_eq_true_eq, Char.le_def,
    UInt32.le_iff_toNat_le] at unreserved
  rcases unreserved with (((((⟨_, last⟩ | ⟨_, last⟩) | ⟨_, last⟩) | rfl) | rfl) | rfl) | rfl
  · exact Nat.lt_of_le_of_lt last (by decide)
  · exact Nat.lt_of_le_of_lt last (by decide)
  · exact Nat.lt_of_le_of_lt last (by decide)
  all_goals decide

variable {spelling : List Char} {bytes : List UInt8}

theorem spelledBytes?_eq_some :
    spelledBytes? spelling = some bytes ↔ Spells spelling bytes := by
  constructor
  · intro spelled
    fun_induction spelledBytes? spelling generalizing bytes with
    | case1 => cases spelled; exact .nil
    | case2 high low rest byte digits ih =>
      obtain ⟨others, isSpelled, rfl⟩ := Option.map_eq_some_iff.mp spelled
      exact .escape digits (ih isSpelled)
    | case3 => contradiction
    | case4 c rest _ unreserved ih =>
      obtain ⟨others, isSpelled, rfl⟩ := Option.map_eq_some_iff.mp spelled
      exact .plain unreserved (ih isSpelled)
    | case5 => contradiction
  · intro spells
    induction spells with
    | nil => rfl
    | plain unreserved _ ih =>
      rw [spelledBytes?, if_pos unreserved, ih, Option.map_some]
      rintro high low rest rfl
      contradiction
    | escape digits _ ih => simp only [spelledBytes?, digits, ih, Option.map_some]

theorem spelledText?_eq_some {text : String} :
    spelledText? spelling = some text ↔ Spells spelling text.toUTF8.data.toList := by
  have back : text.toUTF8.data.toList.toByteArray = text.toByteArray := by
    rw [ByteArray.ext_iff]
    simp
  rw [← spelledBytes?_eq_some, spelledText?]
  cases spelledBytes? spelling with
  | none => simp
  | some bytes =>
    simp only [Option.some.injEq, String.fromUTF8?]
    constructor
    · intro read
      split at read
      · cases read
        simp [String.fromUTF8]
      · contradiction
    · rintro rfl
      have valid : text.toUTF8.data.toList.toByteArray.IsValidUTF8 := back ▸ text.isValidUTF8
      rw [dif_pos valid, Option.some.injEq, ← String.toByteArray_inj]
      exact back

/-! ### Decoding and encoding again -/

theorem encodeByte_plain {c : Char} (unreserved : isUnreserved c = true) :
    encodeByte (fun _ => false) (UInt8.ofNat c.toNat) = [c] := by
  have ascii := isUnreserved_ascii unreserved
  have same : Char.ofNat (UInt8.ofNat c.toNat).toNat = c := by
    rw [toNat_byte (by omega)]
    exact Char.ofNat_toNat c
  have small : UInt8.ofNat c.toNat < 0x80 := by
    rw [UInt8.lt_iff_toNat_lt, toNat_byte (by omega)]
    exact ascii
  simp only [encodeByte, same]
  rw [if_pos ⟨small, by rw [unreserved]; rfl⟩]

theorem toUTF8_ascii {c : Char} (ascii : c.toNat < 0x80) :
    (String.singleton c).toUTF8.data.toList = [UInt8.ofNat c.toNat] := by
  have small : c.val.toNat ≤ 127 := Nat.le_of_lt_succ ascii
  rw [toList_toUTF8, String.toList_singleton, List.flatMap_singleton, String.utf8EncodeChar,
    if_pos small]
  rfl

theorem not_escape {c : Char} (unreserved : isUnreserved c = true) : c ≠ '%' := by
  rintro rfl
  contradiction

theorem Spells.unescapedBytes (spells : Spells spelling bytes) :
    unescapedBytes spelling = bytes := by
  induction spells with
  | nil => rfl
  | plain unreserved _ ih =>
    rw [Text.unescapedBytes, toUTF8_ascii (isUnreserved_ascii unreserved), ih,
      List.singleton_append]
    exact fun _ _ _ escape => absurd escape (not_escape unreserved)
  | escape digits _ ih => simp only [Text.unescapedBytes, digits, ih]

theorem Spells.normalizeEscapes (spells : Spells spelling bytes) :
    normalizeEscapes spelling = bytes.flatMap (encodeByte fun _ => false) := by
  induction spells with
  | nil => rfl
  | plain unreserved _ ih =>
    rw [Text.normalizeEscapes, ih, List.flatMap_cons, encodeByte_plain unreserved,
      List.singleton_append]
    exact fun _ _ _ escape => absurd escape (not_escape unreserved)
  | escape digits _ ih => simp only [Text.normalizeEscapes, digits, ih, List.flatMap_cons]

theorem isUnreserved_of_hexValue? {c : Char} {digit : Nat} (isDigit : hexValue? c = some digit) :
    isUnreserved c = true := by
  unfold hexValue? at isDigit
  split at isDigit
  · rename_i decimal
    simp [isUnreserved, decimal]
  · split at isDigit
    · rename_i lower
      have : c ≤ 'z' := Char.le_trans lower.2 (by decide)
      simp [isUnreserved, lower.1, this]
    · split at isDigit
      · rename_i upper
        have : c ≤ 'Z' := Char.le_trans upper.2 (by decide)
        simp [isUnreserved, upper.1, this]
      · contradiction

theorem isUnreserved_of_hexByte? {high low : Char} {byte : UInt8}
    (digits : hexByte? high low = some byte) :
    isUnreserved high = true ∧ isUnreserved low = true := by
  unfold hexByte? at digits
  split at digits
  · rename_i isHigh isLow
    exact ⟨isUnreserved_of_hexValue? isHigh, isUnreserved_of_hexValue? isLow⟩
  · contradiction

/-- Putting escapes into their normal form spells no more bytes than there are, and as many only if
all was spelled well before: an escape that comes about in this way swallows what it is made of. -/
theorem length_normalized (spells : Spells (normalizeEscapes spelling) bytes) :
    bytes.length ≤ (unescapedBytes spelling).length ∧
      (bytes.length = (unescapedBytes spelling).length → ∃ own, Spells spelling own) := by
  fun_induction normalizeEscapes spelling generalizing bytes with
  | case1 => cases spells; exact ⟨Nat.le_refl _, fun _ => ⟨[], .nil⟩⟩
  | case2 high low rest byte digits ih =>
    rw [← spelledBytes?_eq_some, spelledBytes?_encodeByte, Option.map_eq_some_iff] at spells
    obtain ⟨others, spelled, rfl⟩ := spells
    obtain ⟨few, well⟩ := ih (spelledBytes?_eq_some.mp spelled)
    simp only [unescapedBytes, digits, List.length_cons]
    refine ⟨by omega, fun same => ?_⟩
    obtain ⟨own, isOwn⟩ := well (by omega)
    exact ⟨byte :: own, .escape digits isOwn⟩
  | case3 high low rest bad ih =>
    simp only [unescapedBytes, bad, List.length_cons]
    generalize normalizeEscapes (high :: low :: rest) = normal at spells ih
    cases spells with
    | plain unreserved => contradiction
    | escape digits others =>
      obtain ⟨isHigh, isLow⟩ := isUnreserved_of_hexByte? digits
      have few := (ih (.plain isHigh (.plain isLow others))).1
      simp only [List.length_cons] at few ⊢
      omega
  | case4 c rest noEscape ih =>
    rw [unescapedBytes, List.length_append]
    · generalize isNormal : normalizeEscapes rest = normal at spells ih
      cases spells with
      | plain unreserved others =>
        obtain ⟨few, well⟩ := ih others
        rw [toUTF8_ascii (isUnreserved_ascii unreserved)]
        simp only [List.length_cons, List.length_nil]
        refine ⟨by omega, fun same => ?_⟩
        obtain ⟨own, isOwn⟩ := well (by omega)
        exact ⟨_, .plain unreserved isOwn⟩
      | escape digits others =>
        -- behind a percent sign that begins no escape there is one character at most
        match rest with
        | [] => cases isNormal
        | [single] => simp [normalizeEscapes] at isNormal
        | first :: second :: rest => exact (noEscape first second rest rfl rfl).elim
    · exact noEscape

theorem percentDecode_of_spells {text : String} (spells : Spells spelling text.toUTF8.data.toList) :
    percentDecode (String.ofList spelling) = text := by
  rw [percentDecode, String.toList_ofList, spells.unescapedBytes, decodeUtf8_toUTF8,
    String.ofList_toList]

/-- What is decoded, with replacements where it cannot be, encodes to the same again only if it was
spelled well. -/
theorem percentEncode_percentDecode :
    (percentEncode (percentDecode (String.ofList spelling))).toList = normalizeEscapes spelling ↔
      ∃ text, spelledText? spelling = some text := by
  simp only [spelledText?_eq_some]
  constructor
  · intro same
    have spells : Spells (normalizeEscapes spelling)
        (percentDecode (String.ofList spelling)).toUTF8.data.toList := by
      rw [← same, toList_percentEncode, ← spelledBytes?_eq_some, spelledBytes?_flatMap]
    have enough := length_le_decodeUtf8 (unescapedBytes spelling)
    rw [percentDecode, String.toList_ofList] at spells
    obtain ⟨few, well⟩ := length_normalized spells
    obtain ⟨own, isOwn⟩ := well (Nat.le_antisymm few enough)
    rw [isOwn.normalizeEscapes, ← spelledBytes?_eq_some, spelledBytes?_flatMap] at spells
    cases spells
    exact ⟨_, isOwn⟩
  · rintro ⟨text, spells⟩
    rw [percentDecode_of_spells spells, toList_percentEncode, spells.normalizeEscapes]

theorem unescapedBytes_eq_nil :
    unescapedBytes spelling = [] ↔ spelling = [] := by
  fun_cases unescapedBytes spelling with
  | case1 => simp
  | case2 => simp
  | case3 => simp
  | case4 c rest =>
    rw [toList_toUTF8]
    simp [String.utf8EncodeChar_ne_nil]

theorem percentDecode_ne_empty (given : spelling ≠ []) :
    percentDecode (String.ofList spelling) ≠ "" := by
  intro empty
  have enough := length_le_decodeUtf8 (unescapedBytes spelling)
  rw [percentDecode, String.toList_ofList] at empty
  rw [empty] at enough
  exact given (unescapedBytes_eq_nil.mp (List.eq_nil_of_length_eq_zero (Nat.le_zero.mp enough)))

/-! ### No slash in a part -/

theorem Spells.no_slash (spells : Spells spelling bytes) : '/' ∉ spelling := by
  have differs : ∀ {c : Char}, isUnreserved c = true → '/' ≠ c := by
    rintro c unreserved rfl
    contradiction
  induction spells with
  | nil => simp
  | plain unreserved _ ih => simp [ih, differs unreserved]
  | escape digits _ ih =>
    obtain ⟨isHigh, isLow⟩ := isUnreserved_of_hexByte? digits
    simp [ih, differs isHigh, differs isLow]

theorem slash_not_mem_normalizeEscapes (cut : '/' ∉ spelling) :
    '/' ∉ normalizeEscapes spelling := by
  fun_induction normalizeEscapes spelling with
  | case1 => simp
  | case2 high low rest byte digits ih =>
    simp only [List.mem_cons, not_or] at cut
    rw [List.mem_append, not_or]
    exact ⟨slash_not_mem_encodeByte byte, ih cut.2.2.2⟩
  | case3 high low rest bad ih =>
    simp only [List.mem_cons, not_or] at cut ih ⊢
    exact ⟨cut.1, ih cut.2⟩
  | case4 c rest _ ih =>
    simp only [List.mem_cons, not_or] at cut ⊢
    exact ⟨cut.1, ih cut.2⟩

theorem normalizeEscapes_percent {rest : List Char}
    (noEscape : ∀ high low others, rest = high :: low :: others → hexByte? high low = none) :
    normalizeEscapes ('%' :: rest) = '%' :: normalizeEscapes rest := by
  match rest with
  | [] => rfl
  | [single] => rfl
  | high :: low :: others => simp only [normalizeEscapes, noEscape high low others rfl]

theorem normalizeEscapes_slash (spelling rest : List Char) :
    normalizeEscapes (spelling ++ '/' :: rest) =
      normalizeEscapes spelling ++ '/' :: normalizeEscapes rest := by
  have slashFirst : ∀ low, hexByte? '/' low = none := fun _ => rfl
  have slashSecond : ∀ high, hexByte? high '/' = none := by
    intro high
    unfold hexByte?
    cases hexValue? high <;> rfl
  fun_induction normalizeEscapes spelling with
  | case1 => simp [normalizeEscapes]
  | case2 high low others byte digits ih =>
    simp only [List.cons_append, normalizeEscapes, digits, ih, List.append_assoc]
  | case3 high low others bad ih =>
    simp only [List.cons_append] at ih
    simp only [List.cons_append, normalizeEscapes, bad, ih]
  | case4 c others noEscape ih =>
    rw [List.cons_append, List.cons_append, ← ih]
    by_cases percent : c = '%'
    · subst percent
      refine normalizeEscapes_percent fun high low later split => ?_
      match others with
      | [] => cases split; exact slashFirst low
      | [single] => cases split; exact slashSecond high
      | first :: second :: more => exact (noEscape first second more rfl rfl).elim
    · rw [normalizeEscapes]
      exact fun _ _ _ isPercent => absurd isPercent percent

theorem Spells.length_le (spells : Spells spelling bytes) :
    bytes.length ≤ (String.ofList spelling).utf8ByteSize := by
  induction spells with
  | nil => exact Nat.zero_le _
  | @plain c rest bytes unreserved others ih =>
    have size := c.utf8Size_pos
    rw [String.ofList_cons, String.utf8ByteSize_append, String.utf8ByteSize_singleton,
      List.length_cons]
    omega
  | @escape high low byte rest bytes digits others ih =>
    have size := Char.utf8Size_pos '%'
    rw [String.ofList_cons, String.ofList_cons, String.ofList_cons, String.utf8ByteSize_append,
      String.utf8ByteSize_append, String.utf8ByteSize_append, String.utf8ByteSize_singleton,
      List.length_cons]
    omega

end Text

end LanguageBridge
