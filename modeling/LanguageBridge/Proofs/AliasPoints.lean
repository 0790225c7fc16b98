import LanguageBridge.AliasPoints
import LanguageBridge.Proofs.AliasSpelling

namespace LanguageBridge

/-! The texts of any code points that are aliases. A text without surrogates is read as a string is.
One with surrogates is no alias, but if it has the parts of one, this is not what it is refused for. -/

namespace Text

/-! ### Surrogates in a text -/

def HasSurrogate (text : List CodePoint) : Prop :=
  ∃ index, .surrogate index ∈ text

variable {text : List CodePoint} {plain : List Char}

theorem chars?_chars (plain : List Char) : chars? (chars plain) = some plain := by
  induction plain with
  | nil => rfl
  | cons c rest ih =>
    have later : chars? (chars rest) = some rest := ih
    simp only [chars, List.map_cons, chars?]
    rw [← chars, later, Option.map_some]

theorem hasSurrogate_chars (plain : List Char) : ¬ HasSurrogate (chars plain) := by
  rintro ⟨index, member⟩
  obtain ⟨c, _, isChar⟩ := List.mem_map.mp member
  contradiction

/-- A text is one of characters, or it has a surrogate. -/
theorem chars_or_hasSurrogate (text : List CodePoint) :
    (∃ plain, text = chars plain) ∨ HasSurrogate text ∧ chars? text = none := by
  induction text with
  | nil => exact Or.inl ⟨[], rfl⟩
  | cons point rest ih =>
    cases point with
    | surrogate index => exact Or.inr ⟨⟨index, List.mem_cons_self⟩, rfl⟩
    | char c =>
      rcases ih with ⟨plain, isPlain⟩ | ⟨⟨index, member⟩, isNone⟩
      · exact Or.inl ⟨c :: plain, by rw [isPlain, chars, chars, List.map_cons]⟩
      · exact Or.inr ⟨⟨index, List.mem_cons_of_mem _ member⟩, by simp [chars?, isNone]⟩

theorem exists_chars (smooth : ¬ HasSurrogate text) : ∃ plain, text = chars plain :=
  (chars_or_hasSurrogate text).resolve_right fun ragged => smooth ragged.1

theorem exists_points (smooth : ¬ HasSurrogate text) : ∃ plain, text = points plain := by
  obtain ⟨plain, rfl⟩ := exists_chars smooth
  exact ⟨String.ofList plain, by rw [points, String.toList_ofList]⟩

theorem mapRuns_chars (rewrite : List Char → List Char) (begun plain : List Char) :
    mapRuns rewrite begun (chars plain) = chars (rewrite (begun ++ plain)) := by
  induction plain generalizing begun with
  | nil => rw [List.append_nil, chars, List.map_nil, mapRuns]
  | cons c rest ih =>
    have later := ih (begun ++ [c])
    rw [List.append_assoc, List.singleton_append] at later
    rw [← later]
    rfl

theorem hasSurrogate_mapRuns (rewrite : List Char → List Char) (begun : List Char) :
    HasSurrogate (mapRuns rewrite begun text) ↔ HasSurrogate text := by
  fun_induction mapRuns rewrite begun text with
  | case1 begun => exact iff_of_false (hasSurrogate_chars _) (by simp [HasSurrogate])
  | case2 begun c rest ih => simpa [HasSurrogate] using ih
  | case3 begun index rest ih =>
    exact iff_of_true ⟨index, by simp⟩ ⟨index, List.mem_cons_self⟩

theorem quotedPoints_points (text : String) : quotedPoints (points text) = quoted text := by
  have same : (points text).filterMap CodePoint.char? = text.toList := by
    simp [points, chars, List.filterMap_map, Function.comp_def, CodePoint.char?]
  rw [quotedPoints, same, quoted, points, chars, List.flatMap_map]
  rfl

end Text

namespace Alias

open Text

variable {uri host language text hostPart languagePart : List CodePoint}

/-! ### Encoding -/

theorem percentEncodePoints_points (text : String) :
    percentEncodePoints (points text) = .ok (percentEncode text) := by
  rw [percentEncodePoints, points, chars?_chars]
  simp only [String.ofList_toList]

theorem percentEncodePoints_of_hasSurrogate (ragged : HasSurrogate text) :
    percentEncodePoints text = .error (.unencodable text) := by
  rcases chars_or_hasSurrogate text with ⟨plain, rfl⟩ | ⟨_, isNone⟩
  · exact absurd ragged (hasSurrogate_chars plain)
  · rw [percentEncodePoints, isNone]

theorem points_inj {first second : String} : points first = points second ↔ first = second := by
  rw [← String.toList_inj, points, points, chars, chars,
    List.map_inj_right fun _ _ same => CodePoint.char.inj same]

theorem points_eq_nil {text : String} : points text = [] ↔ text = "" := by
  simp [points, chars]

theorem encodePoints_points (host language : String) :
    encodePoints (points host) (points language) =
      match encode host language with
      | .ok aliasUri => .ok (points aliasUri)
      | .error _ => .error .emptyPart := by
  simp only [encodePoints, points_eq_nil, encode, percentEncodePoints_points]
  split <;> rfl

theorem encodePoints_of_host (given : host ≠ [] ∧ language ≠ []) (ragged : HasSurrogate host) :
    encodePoints host language = .error (.unencodable host) := by
  rw [encodePoints, if_neg (not_or.mpr given), percentEncodePoints_of_hasSurrogate ragged]
  rfl

theorem encodePoints_of_language (given : host ≠ [] ∧ language ≠ [])
    (smooth : ¬ HasSurrogate host) (ragged : HasSurrogate language) :
    encodePoints host language = .error (.unencodable language) := by
  obtain ⟨plain, rfl⟩ := exists_points smooth
  rw [encodePoints, if_neg (not_or.mpr given), percentEncodePoints_points,
    percentEncodePoints_of_hasSurrogate ragged]
  rfl

theorem encodePoints_eq_ok {aliasUri : List CodePoint} :
    encodePoints host language = .ok aliasUri ↔
      ∃ hostText languageText aliasText, (host = points hostText ∧ language = points languageText) ∧
        encode hostText languageText = .ok aliasText ∧ aliasUri = points aliasText := by
  constructor
  · intro encoded
    by_cases given : host = [] ∨ language = []
    · rw [encodePoints, if_pos given] at encoded
      contradiction
    · by_cases ragged : HasSurrogate host
      · rw [encodePoints_of_host (not_or.mp given) ragged] at encoded
        contradiction
      · by_cases raggedToo : HasSurrogate language
        · rw [encodePoints_of_language (not_or.mp given) ragged raggedToo] at encoded
          contradiction
        · obtain ⟨hostText, rfl⟩ := exists_points ragged
          obtain ⟨languageText, rfl⟩ := exists_points raggedToo
          rw [encodePoints_points] at encoded
          split at encoded
          · rename_i aliasText isAlias
            exact ⟨hostText, languageText, aliasText, ⟨rfl, rfl⟩, isAlias, (Except.ok.inj encoded).symm⟩
          · contradiction
  · rintro ⟨hostText, languageText, aliasText, ⟨rfl, rfl⟩, encoded, rfl⟩
    rw [encodePoints_points, encoded]

/-! ### Decoding -/

theorem unescape_chars (plain : List Char) :
    unescape (chars plain) = points (percentDecode (String.ofList plain)) := by
  rw [unescape, mapRuns_chars, List.nil_append, points]

theorem hasSurrogate_unescape : HasSurrogate (unescape text) ↔ HasSurrogate text :=
  hasSurrogate_mapRuns _ _

theorem unescape_ne_nil (given : text ≠ []) : unescape text ≠ [] := by
  rcases chars_or_hasSurrogate text with ⟨plain, rfl⟩ | ⟨ragged, _⟩
  · rw [unescape_chars, Ne, points_eq_nil]
    exact percentDecode_ne_empty fun none => given (by rw [none, chars, List.map_nil])
  · intro none
    obtain ⟨index, member⟩ := hasSurrogate_unescape.mpr ragged
    rw [none] at member
    contradiction

/-- A text with the two parts of an alias. -/
structure Parts (uri hostPart languagePart : List CodePoint) : Prop extends
    Cut (points scheme) (.char '/') uri hostPart languagePart where
  hostGiven : hostPart ≠ []
  languageGiven : languagePart ≠ []
  last : .char '/' ∉ languagePart

theorem parts_or_refused (uri : List CodePoint) :
    (∃ hostPart languagePart, Parts uri hostPart languagePart) ∨
      decodePoints uri = .error (.notAnAlias uri) := by
  unfold decodePoints
  split
  · exact Or.inr rfl
  · rename_i begins
    dsimp only
    split
    · exact Or.inr rfl
    · rename_i behind
      split
      · exact Or.inr rfl
      · rename_i given
        obtain ⟨hostGiven, languageGiven, last⟩ := by simpa only [not_or] using given
        exact Or.inl ⟨_, _, cut_of_dropWhile begins behind, hostGiven, languageGiven, last⟩

namespace Parts

theorem decodePoints (parts : Parts uri hostPart languagePart) :
    decodePoints uri = (encodePoints (unescape hostPart) (unescape languagePart)).bind fun encoded =>
      if encoded = points scheme ++ mapRuns normalizeEscapes [] (hostPart ++ .char '/' :: languagePart)
      then .ok (unescape hostPart, unescape languagePart)
      else .error (.notAnAlias uri) := by
  have given : ¬ (hostPart = [] ∨ languagePart = [] ∨ .char '/' ∈ languagePart) := by
    simp only [not_or]
    exact ⟨parts.hostGiven, parts.languageGiven, parts.last⟩
  rw [Alias.decodePoints, dropExact?_eq_some.mpr parts.whole]
  dsimp only
  rewrite [takeWhile_slash parts.first, dropWhile_slash parts.first]
  dsimp only
  rewrite [if_neg given]
  rfl

theorem unescaped (parts : Parts uri hostPart languagePart) :
    unescape hostPart ≠ [] ∧ unescape languagePart ≠ [] :=
  ⟨unescape_ne_nil parts.hostGiven, unescape_ne_nil parts.languageGiven⟩

theorem decodePoints_of_host (parts : Parts uri hostPart languagePart)
    (ragged : HasSurrogate hostPart) :
    Alias.decodePoints uri = .error (.unencodable (unescape hostPart)) := by
  rw [parts.decodePoints,
    encodePoints_of_host parts.unescaped (hasSurrogate_unescape.mpr ragged)]
  rfl

theorem decodePoints_of_language (parts : Parts uri hostPart languagePart)
    (smooth : ¬ HasSurrogate hostPart) (ragged : HasSurrogate languagePart) :
    Alias.decodePoints uri = .error (.unencodable (unescape languagePart)) := by
  rw [parts.decodePoints, encodePoints_of_language parts.unescaped
    (fun found => smooth (hasSurrogate_unescape.mp found)) (hasSurrogate_unescape.mpr ragged)]
  rfl

theorem eq_points {hostPart languagePart : List Char}
    (parts : Parts uri (chars hostPart) (chars languagePart)) :
    uri = points (scheme ++ String.ofList hostPart ++ "/" ++ String.ofList languagePart) := by
  rw [parts.whole]
  simp [points, chars]

/-- Without surrogates a text is read as a string is. -/
theorem decodePoints_of_chars {hostPart languagePart : List Char}
    (parts : Parts uri (chars hostPart) (chars languagePart)) :
    Alias.decodePoints uri =
      match parse? (scheme ++ String.ofList hostPart ++ "/" ++ String.ofList languagePart) with
      | some found => .ok (points found.host, points found.language)
      | none => .error (.notAnAlias uri) := by
  have first : '/' ∉ hostPart := fun member => parts.first (List.mem_map_of_mem member)
  have hostGiven : hostPart ≠ [] := fun none => parts.hostGiven (by rw [none, chars, List.map_nil])
  have languageGiven : languagePart ≠ [] := fun none =>
    parts.languageGiven (by rw [none, chars, List.map_nil])
  have encoded : encode (percentDecode (String.ofList hostPart))
      (percentDecode (String.ofList languagePart)) = .ok _ :=
    encode_eq_ok.mpr ⟨⟨percentDecode_ne_empty hostGiven, percentDecode_ne_empty languageGiven⟩, rfl⟩
  have body : chars hostPart ++ .char '/' :: chars languagePart =
      chars (hostPart ++ '/' :: languagePart) := by
    simp [chars]
  have whole : ∀ rest, points scheme ++ chars rest = points (scheme ++ String.ofList rest) := by
    simp [points, chars]
  rw [parts.decodePoints, unescape_chars, unescape_chars, encodePoints_points, encoded, body,
    mapRuns_chars, List.nil_append, whole, (cut_text first languagePart).parse?,
    if_neg (not_or.mpr ⟨hostGiven, languageGiven⟩)]
  dsimp only [Except.bind]
  have reencoded := points_inj.trans (reencoded_iff first languagePart)
  by_cases spelled : (∃ host, spelledText? hostPart = some host) ∧
      ∃ language, spelledText? languagePart = some language
  · rw [if_pos (reencoded.mpr spelled)]
    obtain ⟨⟨host, isHost⟩, language, isLanguage⟩ := spelled
    simp only [isHost, isLanguage, percentDecode_of_spells (spelledText?_eq_some.mp isHost),
      percentDecode_of_spells (spelledText?_eq_some.mp isLanguage)]
  · rw [if_neg fun same => spelled (reencoded.mp same)]
    cases isHost : spelledText? hostPart with
    | none => rfl
    | some host =>
      cases isLanguage : spelledText? languagePart with
      | none => rfl
      | some language => exact absurd ⟨⟨host, isHost⟩, language, isLanguage⟩ spelled

end Parts

/-! ### What is read -/

theorem parts_of_spells {host language : String} {hostPart languagePart : List Char}
    (given : host ≠ "" ∧ language ≠ "") (isHost : Spells hostPart host.toUTF8.data.toList)
    (isLanguage : Spells languagePart language.toUTF8.data.toList) :
    Parts (points (scheme ++ String.ofList hostPart ++ "/" ++ String.ofList languagePart))
      (chars hostPart) (chars languagePart) := by
  have slash : ∀ {part : List Char}, '/' ∉ part → .char '/' ∉ chars part := by
    simp [chars]
  refine ⟨⟨by simp [points, chars], slash isHost.no_slash⟩, ?_, ?_, slash isLanguage.no_slash⟩
  · rw [chars, Ne, List.map_eq_nil_iff, spelling_eq_nil isHost]
    exact given.1
  · rw [chars, Ne, List.map_eq_nil_iff, spelling_eq_nil isLanguage]
    exact given.2

theorem decodePoints_points (uri : String) :
    decodePoints (points uri) =
      match parse? uri with
      | some found => .ok (points found.host, points found.language)
      | none => .error (.notAnAlias (points uri)) := by
  rcases parts_or_refused (points uri) with ⟨hostPart, languagePart, parts⟩ | refused
  · have smooth : ∀ {part}, (∀ point ∈ part, point ∈ points uri) → ∃ plain, part = chars plain := by
      intro part within
      apply exists_chars
      rintro ⟨index, member⟩
      exact hasSurrogate_chars uri.toList ⟨index, within _ member⟩
    obtain ⟨hostPlain, rfl⟩ := smooth fun point member => by
      rw [parts.whole]
      exact List.mem_append_right _ (List.mem_append_left _ member)
    obtain ⟨languagePlain, rfl⟩ := smooth fun point member => by
      rw [parts.whole]
      exact List.mem_append_right _ (List.mem_append_right _ (List.mem_cons_of_mem _ member))
    rw [parts.decodePoints_of_chars, ← points_inj.mp parts.eq_points]
  · rw [refused]
    cases read : parse? uri with
    | none => rfl
    | some found =>
      obtain ⟨given, hostPart, languagePart, isHost, isLanguage, rfl⟩ := parse?_eq_some.mp read
      have decoded := (parts_of_spells given isHost isLanguage).decodePoints_of_chars
      rw [read, refused] at decoded
      contradiction

/-- A string is refused in the same words. -/
theorem message_notAnAlias (text : String) :
    (Refusal.notAnAlias (points text)).message = (Fault.notAnAlias (.str text)).message :=
  congrArg ("not a synthetic alias: " ++ ·) (quotedPoints_points text)

/-- A text with the parts of an alias, the first of which that has a surrogate decodes to this. -/
def Mangled (uri text : List CodePoint) : Prop :=
  ∃ hostPart languagePart, Parts uri hostPart languagePart ∧
    (HasSurrogate hostPart ∧ text = unescape hostPart ∨
      ¬ HasSurrogate hostPart ∧ HasSurrogate languagePart ∧ text = unescape languagePart)

theorem Mangled.unencodable (mangled : Mangled uri text) :
    decodePoints uri = .error (.unencodable text) := by
  obtain ⟨hostPart, languagePart, parts, ⟨ragged, rfl⟩ | ⟨smooth, ragged, rfl⟩⟩ := mangled
  · exact parts.decodePoints_of_host ragged
  · exact parts.decodePoints_of_language smooth ragged

theorem string_or_mangled (uri : List CodePoint) :
    (∃ text, uri = points text) ∨ (∃ text, Mangled uri text) ∨
      decodePoints uri = .error (.notAnAlias uri) := by
  rcases parts_or_refused uri with ⟨hostPart, languagePart, parts⟩ | refused
  · by_cases ragged : HasSurrogate hostPart
    · exact Or.inr (Or.inl ⟨_, hostPart, languagePart, parts, Or.inl ⟨ragged, rfl⟩⟩)
    · by_cases raggedToo : HasSurrogate languagePart
      · exact Or.inr (Or.inl ⟨_, hostPart, languagePart, parts, Or.inr ⟨ragged, raggedToo, rfl⟩⟩)
      · obtain ⟨hostPlain, rfl⟩ := exists_chars ragged
        obtain ⟨languagePlain, rfl⟩ := exists_chars raggedToo
        exact Or.inl ⟨_, parts.eq_points⟩
  · exact Or.inr (Or.inr refused)

theorem decodePoints_eq_ok :
    decodePoints uri = .ok (host, language) ↔
      ∃ hostText languageText, (host = points hostText ∧ language = points languageText) ∧
        (hostText ≠ "" ∧ languageText ≠ "") ∧ ∃ hostPart languagePart,
          Spells hostPart hostText.toUTF8.data.toList ∧
          Spells languagePart languageText.toUTF8.data.toList ∧
          uri = points (scheme ++ String.ofList hostPart ++ "/" ++ String.ofList languagePart) := by
  constructor
  · intro decoded
    rcases string_or_mangled uri with ⟨text, rfl⟩ | ⟨text, mangled⟩ | refused
    · rw [decodePoints_points] at decoded
      split at decoded
      · rename_i found read
        cases decoded
        simp only [points_inj]
        exact ⟨found.host, found.language, ⟨rfl, rfl⟩, parse?_eq_some.mp read⟩
      · contradiction
    · rw [mangled.unencodable] at decoded
      contradiction
    · rw [refused] at decoded
      contradiction
  · rintro ⟨hostText, languageText, ⟨rfl, rfl⟩, given, hostPart, languagePart, isHost, isLanguage, rfl⟩
    rw [decodePoints_points, parse?_eq_some.mpr ⟨given, hostPart, languagePart, isHost, isLanguage, rfl⟩]

theorem decodePoints_eq_unencodable :
    decodePoints uri = .error (.unencodable text) ↔ Mangled uri text := by
  refine ⟨fun decoded => ?_, Mangled.unencodable⟩
  rcases string_or_mangled uri with ⟨plain, rfl⟩ | ⟨other, mangled⟩ | refused
  · rw [decodePoints_points] at decoded
    split at decoded
    · contradiction
    · cases decoded
  · rw [mangled.unencodable] at decoded
    cases decoded
    exact mangled
  · rw [refused] at decoded
    cases decoded

theorem exists_encodePoints :
    (∃ aliasUri, encodePoints host language = .ok aliasUri) ↔
      (host ≠ [] ∧ language ≠ []) ∧ ¬ HasSurrogate host ∧ ¬ HasSurrogate language := by
  simp only [encodePoints_eq_ok]
  constructor
  · rintro ⟨_, hostText, languageText, _, ⟨rfl, rfl⟩, encoded, _⟩
    simp only [ne_eq, points_eq_nil]
    exact ⟨(encode_eq_ok.mp encoded).1, hasSurrogate_chars _, hasSurrogate_chars _⟩
  · rintro ⟨given, smooth, smoothToo⟩
    obtain ⟨hostText, rfl⟩ := exists_points smooth
    obtain ⟨languageText, rfl⟩ := exists_points smoothToo
    simp only [ne_eq, points_eq_nil] at given
    obtain ⟨aliasText, encoded⟩ := exists_encode given.1 given.2
    exact ⟨_, hostText, languageText, aliasText, ⟨rfl, rfl⟩, encoded, rfl⟩

/-- A text is read as the alias of a host and a language exactly if it spells the two. If it has the
parts of an alias and surrogates in them, it cannot be encoded; all else is refused as no alias. What
is encoded can be read back, and strings are read as elsewhere. -/
theorem decodePoints_exact (uri host language : List CodePoint) :
    (decodePoints uri = .ok (host, language) ↔
      ∃ hostText languageText, (host = points hostText ∧ language = points languageText) ∧
        (hostText ≠ "" ∧ languageText ≠ "") ∧ ∃ hostPart languagePart,
          Spells hostPart hostText.toUTF8.data.toList ∧
          Spells languagePart languageText.toUTF8.data.toList ∧
          uri = points ("otter://" ++ String.ofList hostPart ++ "/" ++ String.ofList languagePart)) ∧
    (∀ text, decodePoints uri = .error (.unencodable text) ↔ Mangled uri text) ∧
    ((∃ found, decodePoints uri = .ok found) ∨ (∃ text, Mangled uri text) ∨
      decodePoints uri = .error (.notAnAlias uri)) ∧
    ((∃ aliasUri, encodePoints host language = .ok aliasUri) ↔
      (host ≠ [] ∧ language ≠ []) ∧ ¬ HasSurrogate host ∧ ¬ HasSurrogate language) ∧
    (∀ aliasUri, encodePoints host language = .ok aliasUri →
      decodePoints aliasUri = .ok (host, language)) ∧
    ∀ text, decodePoints (points text) =
      match parse (.str text) with
      | .ok found => .ok (points found.host, points found.language)
      | .error _ => .error (.notAnAlias (points text)) := by
  refine ⟨decodePoints_eq_ok, fun _ => decodePoints_eq_unencodable, ?_, exists_encodePoints, ?_, ?_⟩
  · rcases string_or_mangled uri with ⟨text, rfl⟩ | others
    · rw [decodePoints_points]
      split
      · exact Or.inl ⟨_, rfl⟩
      · exact Or.inr (Or.inr rfl)
    · exact Or.inr others
  · intro aliasUri encoded
    obtain ⟨hostText, languageText, aliasText, ⟨rfl, rfl⟩, encodes, rfl⟩ :=
      encodePoints_eq_ok.mp encoded
    rw [decodePoints_points, parse?_encode encodes]
  · intro text
    rw [decodePoints_points]
    simp only [parse]
    cases parse? text <;> rfl

/-- An escaped letter in one part, and small hexadecimal digits in the other. -/
theorem decodePoints_exact_respelled :
    decodePoints (points "otter://%61%3a/p%79") = .ok (points "a:", points "py") ∧
      ∃ aliasUri, encodePoints (points "a:") (points "py") = .ok aliasUri ∧
        decodePoints aliasUri = .ok (points "a:", points "py") := by
  have host : Spells ['%', '6', '1', '%', '3', 'a'] "a:".toUTF8.data.toList :=
    spelledText?_eq_some.mp (by decide)
  have language : Spells ['p', '%', '7', '9'] "py".toUTF8.data.toList :=
    spelledText?_eq_some.mp (by decide)
  obtain ⟨read, _, _, encodes, back, _⟩ :=
    decodePoints_exact (points "otter://%61%3a/p%79") (points "a:") (points "py")
  obtain ⟨aliasUri, encoded⟩ := encodes.mpr ⟨by decide, hasSurrogate_chars _, hasSurrogate_chars _⟩
  exact ⟨read.mpr ⟨"a:", "py", ⟨rfl, rfl⟩, by decide, _, _, host, language, by decide⟩,
    aliasUri, encoded, back aliasUri encoded⟩

/-- A surrogate for the host: this is no alias, but that is not what is said of it. -/
theorem surrogate_host_unencodable :
    decodePoints (points "otter://" ++ .surrogate 0 :: points "/py") =
        .error (.unencodable [.surrogate 0]) ∧
      (Refusal.unencodable [.surrogate 0]).message = "'utf-8' codec can't encode character " ++
        "'\\ud800' in position 0: surrogates not allowed" := by
  constructor <;> rfl

end Alias

end LanguageBridge
