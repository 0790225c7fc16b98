import LanguageBridge.Alias

namespace LanguageBridge

/-! An alias can be read back, so different documents have different aliases. -/

namespace Text

/-! ### Bytes and their spelling -/

/-- What may stand for a byte, as a test that all bytes can be put to. -/
def isReadable (byte : UInt8) : Bool :=
  match encodeByte (fun _ => false) byte with
  | [c] => isUnreserved c && c != '%' && c != '/' && UInt8.ofNat c.toNat == byte
  | ['%', high, low] => hexByte? high low == some byte && high != '/' && low != '/'
  | _ => false

theorem isReadable_all (byte : UInt8) : isReadable byte = true := by
  have each : ∀ number : Fin 256, isReadable (UInt8.ofNat number) = true := by decide +kernel
  have here := each ⟨byte.toNat, byte.toNat_lt⟩
  rwa [UInt8.ofNat_toNat] at here

theorem spelledBytes?_encodeByte (byte : UInt8) (rest : List Char) :
    spelledBytes? (encodeByte (fun _ => false) byte ++ rest) =
      (spelledBytes? rest).map (byte :: ·) := by
  have readable := isReadable_all byte
  unfold isReadable at readable
  split at readable
  · rename_i c spelling
    simp only [Bool.and_eq_true, bne_iff_ne, ne_eq, beq_iff_eq] at readable
    obtain ⟨⟨⟨unreserved, notEscape⟩, _⟩, same⟩ := readable
    rw [spelling, List.singleton_append, spelledBytes?, if_pos unreserved, same]
    intro high low later escape
    exact absurd escape notEscape
  · rename_i high low spelling
    simp only [Bool.and_eq_true, bne_iff_ne, ne_eq, beq_iff_eq] at readable
    rw [spelling]
    simp only [List.cons_append, List.nil_append, spelledBytes?, readable.1.1]
  · contradiction

theorem slash_not_mem_encodeByte (byte : UInt8) : '/' ∉ encodeByte (fun _ => false) byte := by
  have readable := isReadable_all byte
  unfold isReadable at readable
  split at readable
  · rename_i c spelling
    simp only [Bool.and_eq_true, bne_iff_ne, ne_eq, beq_iff_eq] at readable
    rw [spelling, List.mem_singleton]
    exact fun same => readable.1.2 same.symm
  · rename_i high low spelling
    simp only [Bool.and_eq_true, bne_iff_ne, ne_eq, beq_iff_eq] at readable
    rw [spelling]
    simp only [List.mem_cons, List.not_mem_nil, or_false, not_or]
    exact ⟨by decide, fun same => readable.1.2 same.symm, fun same => readable.2 same.symm⟩
  · contradiction

theorem spelledBytes?_flatMap (bytes : List UInt8) :
    spelledBytes? (bytes.flatMap (encodeByte fun _ => false)) = some bytes := by
  induction bytes with
  | nil => rfl
  | cons byte rest ih => rw [List.flatMap_cons, spelledBytes?_encodeByte, ih, Option.map_some]

theorem toList_percentEncode (text : String) :
    (percentEncode text).toList = text.toUTF8.data.toList.flatMap (encodeByte fun _ => false) := by
  rw [percentEncode, percentEncodeKeeping, String.toList_ofList]

theorem slash_not_mem_percentEncode (text : String) : '/' ∉ (percentEncode text).toList := by
  rw [toList_percentEncode, List.mem_flatMap]
  rintro ⟨byte, _, member⟩
  exact slash_not_mem_encodeByte byte member

theorem spelledText?_percentEncode (text : String) :
    spelledText? (percentEncode text).toList = some text := by
  have same : text.toUTF8.data.toList.toByteArray = text.toByteArray := by
    rw [ByteArray.ext_iff]
    simp
  rw [spelledText?, toList_percentEncode, spelledBytes?_flatMap]
  simp only [same]
  rw [String.fromUTF8?, dif_pos text.isValidUTF8]
  rfl

end Text

namespace Alias

theorem encode_eq_ok {host language aliasUri : String} :
    encode host language = .ok aliasUri ↔
      (host ≠ "" ∧ language ≠ "") ∧
        aliasUri = scheme ++ Text.percentEncode host ++ "/" ++ Text.percentEncode language := by
  unfold encode
  by_cases given : host = "" ∨ language = ""
  · rw [if_pos given]
    simp only [reduceCtorEq, false_iff, not_and]
    rintro ⟨hostGiven, languageGiven⟩
    exact absurd given (not_or.mpr ⟨hostGiven, languageGiven⟩)
  · rw [if_neg given, Except.ok.injEq]
    exact ⟨fun same => ⟨not_or.mp given, same.symm⟩, fun same => same.2.symm⟩

theorem exists_encode {host language : String} (hostGiven : host ≠ "")
    (languageGiven : language ≠ "") : ∃ aliasUri, encode host language = .ok aliasUri :=
  ⟨_, encode_eq_ok.mpr ⟨⟨hostGiven, languageGiven⟩, rfl⟩⟩

theorem dropExact?_append {α : Type} [DecidableEq α] (expected rest : List α) :
    dropExact? expected (expected ++ rest) = some rest := by
  induction expected with
  | nil => cases rest <;> rfl
  | cons e expected ih => simp [dropExact?, ih]

theorem percentEncode_ne_nil {text : String} (given : text ≠ "") :
    (Text.percentEncode text).toList ≠ [] := by
  intro empty
  have back := Text.spelledText?_percentEncode text
  have blank := Text.spelledText?_percentEncode ""
  rw [show (Text.percentEncode "").toList = [] by decide, ← empty, back] at blank
  exact given (Option.some.inj blank)

theorem parse?_encode {host language aliasUri : String}
    (encoded : encode host language = .ok aliasUri) : parse? aliasUri = some ⟨host, language⟩ := by
  obtain ⟨⟨hostGiven, languageGiven⟩, rfl⟩ := encode_eq_ok.mp encoded
  have hostPart := Text.slash_not_mem_percentEncode host
  have notSlash : ∀ c ∈ (Text.percentEncode host).toList, decide (c ≠ '/') = true := by
    intro c member
    rw [decide_eq_true_eq]
    exact fun same => hostPart (same ▸ member)
  unfold parse?
  rw [String.toList_append, String.toList_append, String.toList_append, List.append_assoc,
    List.append_assoc, dropExact?_append]
  simp only
  rw [List.takeWhile_append_of_pos notSlash, List.dropWhile_append_of_pos notSlash,
    show "/".toList = ['/'] by decide, List.singleton_append, List.takeWhile_cons_of_neg (by simp),
    List.dropWhile_cons_of_neg (by simp), List.append_nil]
  simp only
  rw [if_neg (by simp [percentEncode_ne_nil hostGiven, percentEncode_ne_nil languageGiven]),
    Text.spelledText?_percentEncode, Text.spelledText?_percentEncode]

theorem encode_injective {host language otherHost otherLanguage aliasUri : String}
    (encoded : encode host language = .ok aliasUri)
    (encodedToo : encode otherHost otherLanguage = .ok aliasUri) :
    host = otherHost ∧ language = otherLanguage := by
  have same := (parse?_encode encoded).symm.trans (parse?_encode encodedToo)
  rw [Option.some.injEq, Alias.mk.injEq] at same
  exact same

end Alias

end LanguageBridge
