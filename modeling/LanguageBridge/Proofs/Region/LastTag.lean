import Mathlib.Data.List.Basic
import Mathlib.Data.List.Induction
import LanguageBridge.Proofs.Region.TagRegions

namespace LanguageBridge

/-! The tags of a document in the order of its text, and how far the last of them tells whether an
element is open. -/

/-! ### Where a pattern stands -/

theorem Text.dropCaseless?_eq_some {wanted text after : List Char}
    (found : dropCaseless? wanted text = some after) :
    ∃ head, text = head ++ after ∧ head.length = wanted.length := by
  fun_induction dropCaseless? wanted text with
  | case1 => exact ⟨[], by simpa using found, rfl⟩
  | case2 => contradiction
  | case3 p wanted c text same ih =>
    obtain ⟨head, split, length⟩ := ih found
    exact ⟨c :: head, by rw [split]; rfl, by rw [List.length_cons, length, List.length_cons]⟩
  | case4 => contradiction

namespace TagPattern

/-- A pattern that matches the empty text at some place matches at every place. An empty closing tag
that stands only here and there may lie within an opening tag, where it is not looked for. -/
def Solid (pattern : TagPattern) : Prop :=
  ∀ {before text}, pattern.length? before text = some 0 →
    ∀ before text, (pattern.length? before text).isSome = true

theorem solid_ofDrop {drop? : List Char → Option (List Char)}
    (shortens : ∀ {text after}, drop? text = some after → ∃ head, text = head ++ after ∧ head ≠ []) :
    (ofDrop drop?).Solid := by
  intro before text found
  obtain ⟨after, dropped, same⟩ := Option.map_eq_some_iff.mp found
  obtain ⟨head, rfl, filled⟩ := shortens dropped
  have empty : head.length = 0 := by simpa using same
  exact absurd (List.eq_nil_of_length_eq_zero empty) filled

/-- Only the literal that asks for nothing matches the empty text. -/
theorem solid_literal (wanted : List Char) : (literal wanted).Solid := by
  cases wanted with
  | nil => exact fun _ _ _ => rfl
  | cons c wanted =>
    refine solid_ofDrop fun found => ?_
    obtain ⟨head, split, length⟩ := Text.dropCaseless?_eq_some found
    exact ⟨head, split, List.ne_nil_of_length_eq_add_one length⟩

theorem solid_opening (name : List Char) : (opening name).Solid := by
  refine solid_ofDrop fun {text after} found => ?_
  unfold dropOpening? at found
  split at found
  · contradiction
  · rename_i rest opened
    obtain ⟨head, split, length⟩ := Text.dropCaseless?_eq_some opened
    split at found
    · contradiction
    · split at found
      · contradiction
      · rename_i bracket behind closed
        cases found
        refine ⟨head ++ (rest.takeWhile (· ≠ '>') ++ [bracket]), ?_, by simp⟩
        rw [split, List.append_assoc, List.append_assoc, List.singleton_append, ← closed,
          List.takeWhile_append_dropWhile]

theorem solid_closing (name : List Char) : (closing name).Solid := by
  refine solid_ofDrop fun {text after} found => ?_
  unfold dropClosing? at found
  split at found
  · contradiction
  · rename_i rest opened
    obtain ⟨head, split, length⟩ := Text.dropCaseless?_eq_some opened
    split at found
    · rename_i behind closed
      cases found
      refine ⟨head ++ (rest.takeWhile Text.isBlank ++ ['>']), ?_, by simp⟩
      rw [split, List.append_assoc, List.append_assoc, List.singleton_append, ← closed,
        Text.trimLeft, List.takeWhile_append_dropWhile]
    · contradiction

variable {pattern : TagPattern} {before text : List Char}

def occursIn (pattern : TagPattern) (before text : List Char) : Bool :=
  (pattern.reach? before text).isSome

theorem occurs_eq (line : List Char) : pattern.occurs line = pattern.occursIn [] line := by
  simp [occurs, search?, occursIn]

theorem occursIn_cons {c : Char} : pattern.occursIn before (c :: text) =
    ((pattern.length? before (c :: text)).isSome || pattern.occursIn (c :: before) text) := by
  simp only [occursIn, reach?]
  cases pattern.length? before (c :: text) <;> simp

/-- The places in a text are its head and those behind its first character. -/
theorem exists_place_cons (holds : Nat → List Char → List Char → Prop) {c : Char} :
    (∃ k ≤ (c :: text).length, holds k (((c :: text).take k).reverse ++ before) ((c :: text).drop k)) ↔
      holds 0 before (c :: text) ∨
        ∃ k ≤ text.length, holds (k + 1) ((text.take k).reverse ++ c :: before) (text.drop k) := by
  constructor
  · rintro ⟨k, inside, here⟩
    cases k with
    | zero => exact Or.inl here
    | succ k => exact Or.inr ⟨k, Nat.le_of_succ_le_succ inside, by simpa using here⟩
  · rintro (here | ⟨k, inside, here⟩)
    · exact ⟨0, Nat.zero_le _, here⟩
    · exact ⟨k + 1, Nat.succ_le_succ inside, by simpa using here⟩

theorem occursIn_iff : pattern.occursIn before text = true ↔ ∃ k ≤ text.length,
    (pattern.length? ((text.take k).reverse ++ before) (text.drop k)).isSome = true := by
  induction text generalizing before with
  | nil => simp [occursIn, reach?]
  | cons c text ih =>
    rw [occursIn_cons, Bool.or_eq_true, ih]
    exact (exists_place_cons fun _ before text => (pattern.length? before text).isSome = true).symm

end TagPattern

/-! ### The tags of a line -/

inductive TagKind where
  | start
  | stop
deriving DecidableEq, Repr

/-- A tag in a line, from column `first` up to, and without, column `next`. -/
structure Tag where
  kind : TagKind
  first : Nat
  next : Nat
deriving DecidableEq, Repr

namespace Tag

/-- Whether two tags share a character. -/
def overlaps (one other : Tag) : Bool :=
  max one.first other.first < min one.next other.next

/-- No opening tag overlaps a closing tag. -/
def Separate (tags : List Tag) : Prop :=
  ∀ one ∈ tags, ∀ other ∈ tags, one.kind = .start → other.kind = .stop → one.overlaps other = false

instance (tags : List Tag) : Decidable (Separate tags) :=
  inferInstanceAs (Decidable (∀ one ∈ tags, ∀ other ∈ tags,
    one.kind = .start → other.kind = .stop → one.overlaps other = false))

theorem Separate.behind {front tags : List Tag} (separate : Separate (front ++ tags)) :
    Separate tags :=
  fun one first other second =>
    separate one (List.mem_append_right _ first) other (List.mem_append_right _ second)

end Tag

namespace TagRule

def pattern (rule : TagRule) : TagKind → TagPattern
  | .start => rule.start
  | .stop => rule.stop

def tagAt? (rule : TagRule) (kind : TagKind) (column : Nat) (before text : List Char) : Option Tag :=
  ((rule.pattern kind).length? before text).map fun length => ⟨kind, column, column + length⟩

def tagsAt (rule : TagRule) (column : Nat) (before text : List Char) : List Tag :=
  (rule.tagAt? .start column before text).toList ++ (rule.tagAt? .stop column before text).toList

/-- All tags of a text, whose first character stands in `column`, from left to right. -/
def tagsFrom (rule : TagRule) (column : Nat) : List Char → List Char → List Tag
  | before, [] => rule.tagsAt column before []
  | before, c :: rest =>
    rule.tagsAt column before (c :: rest) ++ rule.tagsFrom (column + 1) (c :: before) rest

def tags (rule : TagRule) (line : List Char) : List Tag :=
  rule.tagsFrom 0 [] line

variable {rule : TagRule} {kind : TagKind} {column length : Nat} {before text line : List Char}
  {tag : Tag}

theorem mem_tagsAt : tag ∈ rule.tagsAt column before text ↔
    rule.tagAt? tag.kind column before text = some tag := by
  have kind_of {kind : TagKind} (found : rule.tagAt? kind column before text = some tag) :
      tag.kind = kind := by
    obtain ⟨length, -, rfl⟩ := Option.map_eq_some_iff.mp found
    rfl
  simp only [tagsAt, List.mem_append, Option.mem_toList]
  constructor
  · rintro (found | found)
    · rwa [kind_of found]
    · rwa [kind_of found]
  · intro found
    cases kind : tag.kind with
    | start => exact .inl (kind ▸ found)
    | stop => exact .inr (kind ▸ found)

theorem mem_tagsFrom : tag ∈ rule.tagsFrom column before text ↔ ∃ k ≤ text.length,
    rule.tagAt? tag.kind (column + k) ((text.take k).reverse ++ before) (text.drop k) = some tag := by
  induction text generalizing column before with
  | nil => simp [tagsFrom, mem_tagsAt]
  | cons c text ih =>
    rw [tagsFrom, List.mem_append, mem_tagsAt, ih]
    simp only [Nat.add_assoc, Nat.add_comm 1]
    exact (TagPattern.exists_place_cons fun k before text =>
      rule.tagAt? tag.kind (column + k) before text = some tag).symm

theorem mem_kinds : kind ∈ (rule.tagsFrom column before text).map Tag.kind ↔
    (rule.pattern kind).occursIn before text = true := by
  rw [List.mem_map, TagPattern.occursIn_iff]
  constructor
  · rintro ⟨tag, member, rfl⟩
    obtain ⟨k, inside, found⟩ := mem_tagsFrom.mp member
    obtain ⟨length, here, -⟩ := Option.map_eq_some_iff.mp found
    exact ⟨k, inside, by rw [here]; rfl⟩
  · rintro ⟨k, inside, stands⟩
    obtain ⟨length, here⟩ := Option.isSome_iff_exists.mp stands
    exact ⟨⟨kind, _, _⟩, mem_tagsFrom.mpr ⟨k, inside, Option.map_eq_some_iff.mpr ⟨length, here, rfl⟩⟩,
      rfl⟩

/-- Behind an opening tag that no closing tag overlaps stand all closing tags that do not stand
before it. -/
theorem stop_occurs_after (solid : rule.stop.Solid)
    (found : rule.start.length? before text = some length)
    (separate : Tag.Separate (rule.tagsFrom column before text)) :
    rule.stop.occursIn ((text.take length).reverse ++ before) (text.drop length) =
      rule.stop.occursIn before text := by
  have fits := rule.start.fits found
  have beyond (k : Nat) : ((text.drop length).take k).reverse ++ ((text.take length).reverse ++ before) =
      (text.take (length + k)).reverse ++ before := by
    rw [List.take_add, List.reverse_append, List.append_assoc]
  rw [Bool.eq_iff_iff, TagPattern.occursIn_iff, TagPattern.occursIn_iff]
  simp only [List.length_drop, beyond, List.drop_drop]
  constructor
  · rintro ⟨k, inside, stops⟩
    exact ⟨length + k, by omega, stops⟩
  · rintro ⟨k, inside, stops⟩
    by_cases behind : length ≤ k
    · exact ⟨k - length, by omega, by rwa [Nat.add_sub_cancel' behind]⟩
    · -- a closing tag that begins within the opening tag shares a character with it, or is empty
      obtain ⟨stopLength, here⟩ := Option.isSome_iff_exists.mp stops
      have one : ⟨.start, column, column + length⟩ ∈ rule.tagsFrom column before text :=
        mem_tagsFrom.mpr ⟨0, Nat.zero_le _, by simp [tagAt?, pattern, found]⟩
      have other : ⟨.stop, column + k, column + k + stopLength⟩ ∈ rule.tagsFrom column before text :=
        mem_tagsFrom.mpr ⟨k, inside, by simp [tagAt?, pattern, here]⟩
      have apart := separate _ one _ other rfl rfl
      simp only [Tag.overlaps, decide_eq_false_iff_not] at apart
      obtain rfl : stopLength = 0 := by omega
      exact ⟨0, Nat.zero_le _, solid here _ _⟩

/-! ### Opening and closing tags in a row -/

section

variable {kinds : List TagKind}

theorem pair_sublist_start_cons :
    [TagKind.start, .stop].Sublist (.start :: kinds) ↔ .stop ∈ kinds := by
  rw [List.cons_sublist_cons, List.singleton_sublist]

theorem pair_sublist_stop_cons :
    [TagKind.start, .stop].Sublist (.stop :: kinds) ↔ [TagKind.start, .stop].Sublist kinds := by
  simp [List.sublist_cons_iff]

theorem pair_sublist_concat_start :
    [TagKind.start, .stop].Sublist (kinds ++ [.start]) ↔ [TagKind.start, .stop].Sublist kinds := by
  refine List.reverse_sublist.symm.trans (.trans ?_ List.reverse_sublist)
  simp [List.sublist_cons_iff]

/-- If an opening tag is there and no closing tag follows one, the last tag is an opening tag. The
converse fails only where one element is closed and another opened. -/
theorem start_without_stop_iff (kinds : List TagKind) :
    .start ∈ kinds ∧ ¬ [TagKind.start, .stop].Sublist kinds ↔
      kinds.getLast? = some .start ∧ ¬ [TagKind.start, .stop, .start].Sublist kinds := by
  cases kinds using List.reverseRecOn with
  | nil => simp
  | append_singleton kinds last =>
    cases last with
    | start =>
      have reopened : [TagKind.start, .stop, .start].Sublist (kinds ++ [.start]) ↔
          [TagKind.start, .stop].Sublist kinds := by
        rw [show [TagKind.start, .stop, .start] = [.start, .stop] ++ [.start] from rfl,
          List.append_sublist_append_right]
      rw [reopened, pair_sublist_concat_start]
      simp
    | stop =>
      constructor
      · rintro ⟨starts, unstopped⟩
        have before : .start ∈ kinds := by simpa using starts
        exact absurd ((List.singleton_sublist.mpr before).append_right [.stop]) unstopped
      · simp

end

/-- Whether the first opening tag of a text is not closed again behind it. -/
def opensIn (rule : TagRule) (before text : List Char) : Bool :=
  match rule.start.reach? before text with
  | none => false
  | some length => !rule.stop.occursIn ((text.take length).reverse ++ before) (text.drop length)

theorem opensAfter_eq (line : List Char) : rule.opensAfter line = rule.opensIn [] line := by
  simp only [opensAfter, opensIn, TagPattern.search?, TagPattern.occursIn, List.take_zero,
    List.reverse_nil, List.drop_zero]
  cases rule.start.reach? [] line <;> simp

theorem opensIn_iff_of_head (solid : rule.stop.Solid)
    (found : rule.start.length? before text = some length)
    (separate : Tag.Separate (rule.tagsFrom column before text)) :
    rule.opensIn before text = true ↔ .start ∈ (rule.tagsFrom column before text).map Tag.kind ∧
      ¬ [TagKind.start, .stop].Sublist ((rule.tagsFrom column before text).map Tag.kind) := by
  have opens : rule.opensIn before text =
      !rule.stop.occursIn ((text.take length).reverse ++ before) (text.drop length) := by
    cases text <;> simp [opensIn, TagPattern.reach?, found]
  obtain ⟨kinds, heads⟩ : ∃ kinds,
      (rule.tagsFrom column before text).map Tag.kind = .start :: kinds := by
    cases text <;> simp [tagsFrom, tagsAt, tagAt?, pattern, found]
  have stops : .stop ∈ kinds ↔ rule.stop.occursIn before text = true := by
    have anywhere : .stop ∈ (rule.tagsFrom column before text).map Tag.kind ↔ _ := mem_kinds
    rw [heads] at anywhere
    simpa [pattern] using anywhere
  rw [heads, pair_sublist_start_cons, stops, opens, stop_occurs_after solid found separate]
  simp

theorem opensIn_iff (solid : rule.stop.Solid)
    (separate : Tag.Separate (rule.tagsFrom column before text)) :
    rule.opensIn before text = true ↔ .start ∈ (rule.tagsFrom column before text).map Tag.kind ∧
      ¬ [TagKind.start, .stop].Sublist ((rule.tagsFrom column before text).map Tag.kind) := by
  induction text generalizing column before with
  | nil =>
    cases found : rule.start.length? before [] with
    | some length => exact opensIn_iff_of_head solid found separate
    | none => simp [opensIn, mem_kinds, pattern, TagPattern.occursIn, TagPattern.reach?, found]
  | cons c rest ih =>
    cases found : rule.start.length? before (c :: rest) with
    | some length => exact opensIn_iff_of_head solid found separate
    | none =>
      have opens : rule.opensIn before (c :: rest) = rule.opensIn (c :: before) rest := by
        simp only [opensIn, TagPattern.reach?, found]
        cases rule.start.reach? (c :: before) rest <;> simp
      rw [opens, ih separate.behind]
      -- what stands at the head of the line is a closing tag or nothing
      cases stops : rule.stop.length? before (c :: rest) <;>
        simp [tagsFrom, tagsAt, tagAt?, pattern, found, stops, pair_sublist_stop_cons]

/-- The tags that have been read before a line, as far as they still count. -/
def carried (state : Option Nat) : List TagKind :=
  state.toList.map fun _ => .start

theorem next_isSome_iff {language : String} {index : Nat} {state : Option Nat}
    (solid : rule.stop.Solid) (separate : Tag.Separate (rule.tags line)) :
    ((rule.scanner language).next index state line).isSome = true ↔
      .start ∈ carried state ++ (rule.tags line).map Tag.kind ∧
        ¬ [TagKind.start, .stop].Sublist (carried state ++ (rule.tags line).map Tag.kind) := by
  cases state with
  | none =>
    rw [next_none, carried, Option.toList_none, List.map_nil, List.nil_append, tags,
      ← opensIn_iff solid separate, ← opensAfter_eq]
    split <;> simp_all
  | some opened =>
    rw [next_some, carried, Option.toList_some, List.map_singleton, List.singleton_append,
      pair_sublist_start_cons, tags, mem_kinds, pattern, ← TagPattern.occurs_eq]
    by_cases stops : rule.stop.occurs line = true
    · simp [stops]
    · rw [if_neg stops]
      split <;> simp [stops]

/-! ### The last tag of the lines read so far -/

def kinds (rule : TagRule) (lines : List (List Char)) : List TagKind :=
  lines.flatMap fun line => (rule.tags line).map Tag.kind

/-- A line in which one element is closed, opened there or above, and then another is opened. -/
def ReopensAt (rule : TagRule) (names : LanguageNames) (lines : List (List Char)) (index : Nat) :
    Prop :=
  ∃ line, lines[index]? = some line ∧ [TagKind.start, .stop, .start].Sublist
    (carried (rule.openedAfter names lines index) ++ (rule.tags line).map Tag.kind)

/-- Of the first lines, the last that has a tag is such a line. -/
def Reopened (rule : TagRule) (names : LanguageNames) (lines : List (List Char)) (count : Nat) :
    Prop :=
  ∃ index < count, rule.ReopensAt names lines index ∧
    ∀ below line, index < below → below < count → lines[below]? = some line → rule.tags line = []

section

variable {names : LanguageNames} {lines : List (List Char)} {index : Nat}

theorem kinds_take_succ (here : lines[index]? = some line) :
    rule.kinds (lines.take (index + 1)) =
      rule.kinds (lines.take index) ++ (rule.tags line).map Tag.kind := by
  simp [kinds, List.take_add_one, here]

theorem reopened_succ_of_plain (here : lines[index]? = some line) (plain : rule.tags line = []) :
    rule.Reopened names lines (index + 1) ↔ rule.Reopened names lines index := by
  constructor
  · rintro ⟨k, early, reopens, below⟩
    obtain before | rfl := Nat.lt_succ_iff_lt_or_eq.mp early
    · exact ⟨k, before, reopens, fun j line behind above => below j line behind (by omega)⟩
    · obtain ⟨same, there, closed⟩ := reopens
      obtain rfl := Option.some.inj (here.symm.trans there)
      rw [plain] at closed
      have short := closed.length_le
      cases state : rule.openedAfter names lines k <;> simp [carried, state] at short
  · rintro ⟨k, early, reopens, below⟩
    refine ⟨k, by omega, reopens, fun j other behind above there => ?_⟩
    obtain before | rfl := Nat.lt_succ_iff_lt_or_eq.mp above
    · exact below j other behind before there
    · obtain rfl := Option.some.inj (here.symm.trans there)
      exact plain

theorem reopened_succ_of_tagged (here : lines[index]? = some line) (tagged : rule.tags line ≠ []) :
    rule.Reopened names lines (index + 1) ↔ [TagKind.start, .stop, .start].Sublist
      (carried (rule.openedAfter names lines index) ++ (rule.tags line).map Tag.kind) := by
  constructor
  · rintro ⟨k, early, reopens, below⟩
    obtain before | rfl := Nat.lt_succ_iff_lt_or_eq.mp early
    · exact absurd (below index line before (Nat.lt_succ_self index) here) tagged
    · obtain ⟨same, there, closed⟩ := reopens
      obtain rfl := Option.some.inj (here.symm.trans there)
      exact closed
  · intro closed
    exact ⟨index, Nat.lt_succ_self index, ⟨line, here, closed⟩, fun j other behind above => by omega⟩

/-- When so many lines have been read, an element is open exactly if the last tag in them is an
opening tag, unless the line of that tag closes one element and then opens another: that one is
missed. It is open there in the sense that a document with no more lines is reported for it. -/
theorem open_iff_last_tag_opens (names : LanguageNames) (solid : rule.stop.Solid)
    (separate : ∀ line ∈ lines, Tag.Separate (rule.tags line)) {count : Nat}
    (inside : count ≤ lines.length) :
    (∀ opened : Nat, rule.openedAfter names lines count = some opened ↔
      ⟨opened, "unclosed tag", some (names.resolve rule.language.toList)⟩ ∈
        (rule.scan names (lines.take count)).malformed) ∧
    ((rule.openedAfter names lines count).isSome = true ↔
      (rule.kinds (lines.take count)).getLast? = some .start ∧
        ¬ rule.Reopened names lines count) := by
  refine ⟨fun opened => openedAfter_eq_some_iff, ?_⟩
  induction count with
  | zero => simp [openedAfter, Scanner.stateAfter, kinds]
  | succ index ih =>
    have here : lines[index]? = some lines[index] := List.getElem?_eq_getElem inside
    have apart := separate lines[index] (List.getElem_mem inside)
    rw [openedAfter_succ here, next_isSome_iff solid apart, kinds_take_succ here]
    by_cases plain : rule.tags lines[index] = []
    · rw [reopened_succ_of_plain here plain, plain, List.map_nil, List.append_nil, List.append_nil,
        ← ih (by omega)]
      cases rule.openedAfter names lines index <;> simp [carried]
    · have tagged : (rule.tags lines[index]).map Tag.kind ≠ [] := by simpa using plain
      rw [reopened_succ_of_tagged here plain, start_without_stop_iff,
        List.getLast?_append_of_ne_nil _ tagged, List.getLast?_append_of_ne_nil _ tagged]

end

theorem open_iff_last_tag_opens_of_stray_stop :
    let lines := ["<script>", "a", "</script>", "</script> <script>", "b"].map String.toList
    script.stop.Solid ∧ (∀ line ∈ lines, Tag.Separate (script.tags line)) ∧
      script.openedAfter {} lines 4 = some 3 ∧
      (script.kinds (lines.take 4)).getLast? = some .start ∧ ¬ script.Reopened {} lines 4 := by
  intro lines
  have solid : script.stop.Solid := TagPattern.solid_closing _
  have separate : ∀ line ∈ lines, Tag.Separate (script.tags line) := by decide +kernel
  have opened : script.openedAfter {} lines 4 = some 3 := by decide +kernel
  have inside : 4 ≤ lines.length := by decide
  exact ⟨solid, separate, opened, (open_iff_last_tag_opens {} solid separate inside).2.mp (by rw [opened]; rfl)⟩

/-- The last tag of the first three lines opens an element that is not seen. Its line is lost, and
the closing tag below it is reported to have no opening tag. -/
theorem reopened_element_missed :
    let lines := ["<script>", "a", "</script><script>", "b", "</script>"].map String.toList
    (∀ line ∈ lines, Tag.Separate (script.tags line)) ∧
      (script.kinds (lines.take 3)).getLast? = some .start ∧
      script.openedAfter {} lines 3 = none ∧
      script.scan {} lines = ⟨[⟨"javascript", 1, 1, 0⟩],
        [⟨4, "closing tag without opening tag", some "javascript"⟩]⟩ := by
  intro lines
  refine ⟨?_, ?_, ?_, ?_⟩ <;> decide +kernel

end TagRule

end LanguageBridge
