import Mathlib.Algebra.Group.Nat.Defs
import LanguageBridge.Text.Utf8

namespace LanguageBridge.Text

/-! Reading bytes that need not be UTF-8. A text comes back as it was, and where something is
replaced the result has no fewer bytes than there were. -/

theorem toList_toUTF8 (text : String) :
    text.toUTF8.data.toList = text.toList.flatMap String.utf8EncodeChar := by
  have same : text.toUTF8 = (text.toList.flatMap String.utf8EncodeChar).toByteArray := by
    rw [← List.utf8Encode, ← String.toByteArray_ofList, String.ofList_toList]
    rfl
  rw [same]
  simp

theorem toNat_byte {code : Nat} (small : code < 256) : (UInt8.ofNat code).toNat = code := by
  simp [Nat.mod_eq_of_lt small]

/-! ### First bytes -/

/-- The character that a first byte begins, if more bytes are to come. -/
def lead? (byte : Nat) : Option PartialCharacter :=
  if byte < 0xC2 then none
  else if byte < 0xE0 then some { missing := 1, code := byte - 0xC0 }
  else if byte < 0xF0 then
    some { missing := 2
           code := byte - 0xE0
           low := if byte = 0xE0 then 0xA0 else 0x80
           high := if byte = 0xED then 0x9F else 0xBF }
  else if byte ≤ 0xF4 then
    some { missing := 3
           code := byte - 0xF0
           low := if byte = 0xF0 then 0x90 else 0x80
           high := if byte = 0xF4 then 0x8F else 0xBF }
  else none

theorem beginCharacter_eq : ∀ byte < 256, beginCharacter byte =
    if byte < 0x80 then ([Char.ofNat byte], none)
    else
      match lead? byte with
      | none => ([replacementCharacter], none)
      | some part => ([], some part) := by
  decide +kernel

theorem beginCharacter_lead {byte : Nat} {part : PartialCharacter} (small : byte < 256)
    (leads : lead? byte = some part) : beginCharacter byte = ([], some part) := by
  have large : ¬ byte < 0x80 := by
    intro ascii
    rw [lead?, if_pos (by omega)] at leads
    contradiction
  rw [beginCharacter_eq byte small, if_neg large, leads]

/-! ### What was a text -/

theorem decodeUtf8From_continue {part : PartialCharacter} {bits : Nat} (rest : List UInt8)
    (small : bits < 64) (inRange : part.low ≤ bits + 128 ∧ bits + 128 ≤ part.high) :
    decodeUtf8From (some part) (UInt8.ofNat (bits + 128) :: rest) =
      if part.missing ≤ 1 then Char.ofNat (part.code * 64 + bits) :: decodeUtf8From none rest
      else
        decodeUtf8From (some { missing := part.missing - 1, code := part.code * 64 + bits }) rest := by
  have sixBits : (bits + 128) % 64 = bits := by omega
  rw [decodeUtf8From, continueCharacter, toNat_byte (by omega)]
  simp only [if_pos inRange, sixBits]
  split <;> rfl

theorem decodeUtf8From_lead {byte : Nat} {part : PartialCharacter} (rest : List UInt8)
    (small : byte < 256) (leads : lead? byte = some part) :
    decodeUtf8From none (UInt8.ofNat byte :: rest) = decodeUtf8From (some part) rest := by
  rw [decodeUtf8From, continueCharacter, toNat_byte small]
  simp only [beginCharacter_lead small leads, List.nil_append]

theorem decodeUtf8From_utf8EncodeChar (c : Char) (rest : List UInt8) :
    decodeUtf8From none (String.utf8EncodeChar c ++ rest) = c :: decodeUtf8From none rest := by
  have valid : c.val.toNat < 0xD800 ∨ 0xDFFF < c.val.toNat ∧ c.val.toNat < 0x110000 := c.valid
  have isC : ∀ code, code = c.val.toNat → Char.ofNat code = c := by
    rintro code rfl
    exact Char.ofNat_toNat c
  fun_cases String.utf8EncodeChar c with
  | case1 code small =>
    rw [List.singleton_append, decodeUtf8From, continueCharacter, toNat_byte (by omega),
      beginCharacter, if_pos (by omega)]
    simp only [isC code rfl, List.singleton_append]
  | case2 code large small =>
    have leads : lead? (code / 64 % 32 + 192) = some { missing := 1, code := code / 64 % 32 } := by
      rw [lead?, if_neg (by omega), if_pos (by omega), Nat.add_sub_cancel]
    simp only [List.cons_append, List.nil_append]
    rw [decodeUtf8From_lead _ (by omega) leads,
      decodeUtf8From_continue _ (by omega) (by simp only; omega), if_pos (by simp),
      isC _ (by simp only [code] at *; omega)]
  | case3 code _ large small =>
    have leads : lead? (code / 4096 % 16 + 224) =
        some { missing := 2
               code := code / 4096 % 16
               low := if code / 4096 % 16 + 224 = 0xE0 then 0xA0 else 0x80
               high := if code / 4096 % 16 + 224 = 0xED then 0x9F else 0xBF } := by
      rw [lead?, if_neg (by omega), if_neg (by omega), if_pos (by omega), Nat.add_sub_cancel]
    simp only [List.cons_append, List.nil_append]
    rw [decodeUtf8From_lead _ (by omega) leads,
      decodeUtf8From_continue _ (by omega) (by simp only [code] at *; split <;> split <;> omega),
      if_neg (by simp), decodeUtf8From_continue _ (by omega) (by simp only; omega),
      if_pos (by simp), isC _ (by simp only [code] at *; omega)]
  | case4 code _ _ large =>
    have leads : lead? (code / 262144 % 8 + 240) =
        some { missing := 3
               code := code / 262144 % 8
               low := if code / 262144 % 8 + 240 = 0xF0 then 0x90 else 0x80
               high := if code / 262144 % 8 + 240 = 0xF4 then 0x8F else 0xBF } := by
      rw [lead?, if_neg (by omega), if_neg (by omega), if_neg (by omega),
        if_pos (by simp only [code] at *; omega), Nat.add_sub_cancel]
    simp only [List.cons_append, List.nil_append]
    rw [decodeUtf8From_lead _ (by omega) leads,
      decodeUtf8From_continue _ (by omega) (by simp only [code] at *; split <;> split <;> omega),
      if_neg (by simp), decodeUtf8From_continue _ (by omega) (by simp only; omega),
      if_neg (by simp), decodeUtf8From_continue _ (by omega) (by simp only; omega),
      if_pos (by simp), isC _ (by simp only [code] at *; omega)]

theorem decodeUtf8_toUTF8 (text : String) : decodeUtf8 text.toUTF8.data.toList = text.toList := by
  rw [toList_toUTF8, decodeUtf8]
  induction text.toList with
  | nil => rfl
  | cons c rest ih => rw [List.flatMap_cons, decodeUtf8From_utf8EncodeChar, ih]

/-! ### What need not be one -/

/-- The least code that takes so many bytes. -/
def leastCode : Nat → Nat
  | 2 => 0x80
  | 3 => 0x800
  | 4 => 0x10000
  | _ => 0

theorem le_length_utf8EncodeChar {code bytes : Nat} (valid : code.isValidChar)
    (filled : 1 ≤ bytes) (few : bytes ≤ 4) (least : leastCode bytes ≤ code) :
    bytes ≤ (String.utf8EncodeChar (Char.ofNat code)).length := by
  have isCode : (Char.ofNat code).val.toNat = code := by
    rw [Char.ofNat, dif_pos valid]
    rfl
  obtain rfl | rfl | rfl | rfl : bytes = 1 ∨ bytes = 2 ∨ bytes = 3 ∨ bytes = 4 := by omega
  all_goals
    simp only [leastCode] at least
    fun_cases String.utf8EncodeChar <;> simp only [List.length_cons, List.length_nil] <;> omega

namespace PartialCharacter

/-- The least code that a character under way can have in the end. -/
def least (part : PartialCharacter) : Nat :=
  (part.code * 64 + (part.low - 0x80)) * 64 ^ (part.missing - 1)

/-- A code that is greater than any it can have. -/
def bound (part : PartialCharacter) : Nat :=
  (part.code * 64 + (part.high - 0x80) + 1) * 64 ^ (part.missing - 1)

/-- A character of which so many bytes are there. It is one in the end, and does not take fewer
bytes than it was read from. -/
structure Given (bytes : Nat) (part : PartialCharacter) : Prop where
  begun : 1 ≤ bytes
  missing : 1 ≤ part.missing
  total : bytes + part.missing ≤ 4
  range : 0x80 ≤ part.low ∧ part.high ≤ 0xBF
  least : leastCode (bytes + part.missing) ≤ part.least
  valid : part.bound ≤ 0xD800 ∨ 0xE000 ≤ part.least ∧ part.bound ≤ 0x110000

end PartialCharacter

theorem given_of_lead? {byte : Nat} {part : PartialCharacter} (leads : lead? byte = some part) :
    part.Given 1 := by
  unfold lead? at leads
  split at leads
  · contradiction
  · split at leads
    · cases leads
      constructor <;> simp [PartialCharacter.least, PartialCharacter.bound, leastCode] <;> omega
    · split at leads
      · cases leads
        constructor <;> simp [PartialCharacter.least, PartialCharacter.bound, leastCode] <;>
          split <;> (try split) <;> omega
      · split at leads
        · cases leads
          constructor <;> simp [PartialCharacter.least, PartialCharacter.bound, leastCode] <;>
            split <;> (try split) <;> omega
        · contradiction

namespace PartialCharacter

theorem narrowed {part : PartialCharacter} {byte : Nat} (more : 1 < part.missing)
    (range : 0x80 ≤ part.low ∧ part.high ≤ 0xBF) (inRange : part.low ≤ byte ∧ byte ≤ part.high) :
    let next : PartialCharacter :=
      { missing := part.missing - 1, code := part.code * 64 + byte % 64 }
    part.least ≤ next.least ∧ next.bound ≤ part.bound := by
  obtain ⟨missing, code, low, high⟩ := part
  obtain ⟨missing, rfl⟩ : ∃ fewer, missing = fewer + 2 := ⟨missing - 2, by simp only at more; omega⟩
  have powers : 64 ^ (missing + 1) = 64 * 64 ^ missing := Nat.pow_succ'
  simp only at range inRange
  have bits : byte % 64 = byte - 0x80 := by omega
  simp only [least, bound, Nat.add_one_sub_one, powers, bits, ← Nat.mul_assoc]
  exact ⟨Nat.mul_le_mul_right _ (by omega), Nat.mul_le_mul_right _ (by omega)⟩

theorem Given.continued {given byte : Nat} {part : PartialCharacter} (held : part.Given given)
    (more : 1 < part.missing) (inRange : part.low ≤ byte ∧ byte ≤ part.high) :
    Given (given + 1) { missing := part.missing - 1, code := part.code * 64 + byte % 64 } := by
  obtain ⟨begun, _, total, range, least, valid⟩ := held
  have sum : given + 1 + (part.missing - 1) = given + part.missing := by omega
  obtain ⟨rising, falling⟩ := narrowed more range inRange
  refine ⟨by omega, by simp only; omega, by simp only; omega, by simp, ?_, ?_⟩
  · rw [sum]
    exact Nat.le_trans least rising
  · omega

theorem Given.completed {given byte : Nat} {part : PartialCharacter} (held : part.Given given)
    (last : part.missing = 1) (inRange : part.low ≤ byte ∧ byte ≤ part.high) :
    given + 1 ≤ (String.utf8EncodeChar (Char.ofNat (part.code * 64 + byte % 64))).length := by
  obtain ⟨begun, _, total, range, least, valid⟩ := held
  have bits : byte % 64 = byte - 0x80 := by omega
  simp only [PartialCharacter.least, bound, last, Nat.sub_self, Nat.pow_zero, Nat.mul_one] at *
  refine le_length_utf8EncodeChar ?_ (by omega) (by omega) (by omega)
  rw [Nat.isValidChar]
  omega

end PartialCharacter

/-- What has been read of a character after so many of its bytes. -/
def Under (given : Nat) : Option PartialCharacter → Prop
  | none => given = 0
  | some part => part.Given given

theorem beginCharacter_under (byte : UInt8) :
    ∃ given, Under given (beginCharacter byte.toNat).2 ∧
      1 ≤ ((beginCharacter byte.toNat).1.flatMap String.utf8EncodeChar).length + given := by
  rw [beginCharacter_eq byte.toNat byte.toNat_lt]
  split
  · have := Char.utf8Size_pos (Char.ofNat byte.toNat)
    exact ⟨0, rfl, by simp; omega⟩
  · cases leads : lead? byte.toNat with
    | none => exact ⟨0, rfl, by decide⟩
    | some part => exact ⟨1, given_of_lead? leads, by simp⟩

theorem continueCharacter_under {given : Nat} {begun : Option PartialCharacter}
    (under : Under given begun) (byte : UInt8) :
    ∃ more, Under more (continueCharacter begun byte.toNat).2 ∧ given + 1 ≤
      ((continueCharacter begun byte.toNat).1.flatMap String.utf8EncodeChar).length + more := by
  cases begun with
  | none =>
    obtain ⟨more, underMore, enough⟩ := beginCharacter_under byte
    have nothing : given = 0 := under
    exact ⟨more, underMore, by rw [nothing]; exact enough⟩
  | some part =>
    have held : part.Given given := under
    unfold continueCharacter
    simp only
    split
    · rename_i inRange
      split
      · have last : part.missing = 1 := Nat.le_antisymm ‹_› held.missing
        refine ⟨0, rfl, ?_⟩
        simpa using held.completed last inRange
      · exact ⟨given + 1, held.continued (by omega) inRange, by simp⟩
    · -- what was under way is replaced, and took three bytes at most
      obtain ⟨more, underMore, enough⟩ := beginCharacter_under byte
      refine ⟨more, underMore, ?_⟩
      have three : (String.utf8EncodeChar replacementCharacter).length = 3 := by decide
      have := held.total
      have := held.missing
      simp only [List.flatMap_cons, List.length_append, three]
      omega

theorem length_le_decodeUtf8From {given : Nat} {begun : Option PartialCharacter}
    (under : Under given begun) (bytes : List UInt8) :
    given + bytes.length ≤
      ((decodeUtf8From begun bytes).flatMap String.utf8EncodeChar).length := by
  induction bytes generalizing given begun with
  | nil =>
    cases begun with
    | none => exact Nat.le_of_eq under
    | some part =>
      have held : part.Given given := under
      have := held.total
      have := held.missing
      have three : (String.utf8EncodeChar replacementCharacter).length = 3 := by decide
      simp only [decodeUtf8From, Option.isSome_some, if_pos, List.flatMap_cons,
        List.flatMap_nil, List.append_nil, List.length_nil, three]
      omega
  | cons byte rest ih =>
    obtain ⟨more, underMore, enough⟩ := continueCharacter_under under byte
    have others := ih underMore
    rw [decodeUtf8From]
    simp only [List.flatMap_append, List.length_append, List.length_cons]
    omega

/-- Reading bytes as a text never leaves fewer bytes. -/
theorem length_le_decodeUtf8 (bytes : List UInt8) :
    bytes.length ≤ (String.ofList (decodeUtf8 bytes)).toUTF8.data.toList.length := by
  rw [toList_toUTF8, String.toList_ofList]
  have found := length_le_decodeUtf8From (show Under 0 none from rfl) bytes
  rwa [Nat.zero_add] at found

end LanguageBridge.Text
