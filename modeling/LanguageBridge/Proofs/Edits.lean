import LanguageBridge.Proofs.Lines
import LanguageBridge.Protocol.Change

namespace LanguageBridge

/-! What changes of an editor do to a text. A change of a part keeps the lines above it, and it keeps
the lines below it too, but these may move. -/

namespace Text

/-! ### Lines of texts that are put together -/

theorem splitCharacters_ne_nil (text : List Char) : splitCharacters text ≠ [] := by
  fun_induction splitCharacters text with
  | case1 | case2 | case3 => simp
  | case4 c rest _ _ ih => cases split : splitCharacters rest <;> simp [extendFirst]

theorem splitCharacters_break {c : Char} (breaks : c = '\r' ∨ c = '\n') (rest : List Char) :
    ∃ behind, splitCharacters (c :: rest) = [] :: splitCharacters behind ∧
      (behind = rest ∨ (c = '\r' ∧ rest = '\n' :: behind)) := by
  cases rest with
  | nil => exact ⟨[], by rcases breaks with rfl | rfl <;> simp [splitCharacters], Or.inl rfl⟩
  | cons next later =>
    by_cases pair : c = '\r' ∧ next = '\n'
    · obtain ⟨rfl, rfl⟩ := pair
      exact ⟨later, rfl, Or.inr ⟨rfl, rfl⟩⟩
    · refine ⟨next :: later, ?_, Or.inl rfl⟩
      rw [splitCharacters.eq_3, if_pos breaks]
      rintro _ rfl same
      cases same
      exact pair ⟨rfl, rfl⟩

theorem dropLast_extendFirst_mono {lines others : List (List Char)} (c : Char)
    (nonempty : others ≠ []) (within : lines.dropLast <+: others.dropLast) :
    (extendFirst c lines).dropLast <+: (extendFirst c others).dropLast := by
  cases lines with
  | nil => exact List.nil_prefix
  | cons first rest =>
    cases rest with
    | nil => exact List.nil_prefix
    | cons second more =>
      cases others with
      | nil => contradiction
      | cons other rest =>
        cases rest with
        | nil => simp at within
        | cons otherSecond otherMore =>
          simp only [extendFirst, List.dropLast_cons_cons, List.cons_prefix_cons] at within ⊢
          exact ⟨by rw [within.1], within.2⟩

theorem dropLast_splitCharacters_append (head rest : List Char) :
    (splitCharacters head).dropLast <+: (splitCharacters (head ++ rest)).dropLast := by
  fun_induction splitCharacters head with
  | case1 => exact List.nil_prefix
  | case2 later ih =>
    rw [List.cons_append, List.cons_append, splitCharacters,
      List.dropLast_cons_of_ne_nil (splitCharacters_ne_nil _),
      List.dropLast_cons_of_ne_nil (splitCharacters_ne_nil _)]
    exact List.cons_prefix_cons.mpr ⟨rfl, ih⟩
  | case3 c later alone breaks ih =>
    obtain ⟨behind, split, place⟩ := splitCharacters_break breaks (later ++ rest)
    rw [List.cons_append, split, List.dropLast_cons_of_ne_nil (splitCharacters_ne_nil _),
      List.dropLast_cons_of_ne_nil (splitCharacters_ne_nil _)]
    refine List.cons_prefix_cons.mpr ⟨rfl, ?_⟩
    rcases place with rfl | ⟨isReturn, paired⟩
    · exact ih
    · -- the line feed comes from the rest, so nothing stands between
      cases later with
      | nil => exact List.nil_prefix
      | cons next more =>
        cases paired
        exact absurd rfl (alone more isReturn)
  | case4 c later _ plain ih =>
    rw [List.cons_append, splitCharacters_cons (not_or.mp plain)]
    exact dropLast_extendFirst_mono c (splitCharacters_ne_nil _) ih

theorem tail_extendFirst (c : Char) {lines : List (List Char)} (nonempty : lines ≠ []) :
    (extendFirst c lines).tail = lines.tail := by
  cases lines with
  | nil => contradiction
  | cons first rest => rfl

theorem tail_splitCharacters_append (head rest : List Char) :
    (splitCharacters rest).tail <:+ (splitCharacters (head ++ rest)).tail := by
  induction head with
  | nil => exact List.suffix_rfl
  | cons c later ih =>
    by_cases breaks : c = '\r' ∨ c = '\n'
    · obtain ⟨behind, split, place⟩ := splitCharacters_break breaks (later ++ rest)
      rw [List.cons_append, split, List.tail_cons]
      rcases place with rfl | ⟨_, paired⟩
      · exact ih.trans (List.tail_suffix _)
      · cases later with
        | nil =>
          -- the two characters of one line end are put together
          rw [List.nil_append] at paired
          rw [paired, splitCharacters_feed]
          exact List.suffix_rfl
        | cons next more =>
          cases paired
          rw [List.cons_append, splitCharacters_feed, List.tail_cons] at ih
          exact ih
    · rw [List.cons_append, splitCharacters_cons (not_or.mp breaks),
        tail_extendFirst c (splitCharacters_ne_nil _)]
      exact ih

/-! ### Cutting a text at a position

Editors count columns in units of their own, of which a character takes some. -/

section Cut

variable (width : Char → Nat)

/-- Cuts a text in its first line; a column behind the line is the end of the line. -/
def cutColumn : Nat → List Char → List Char × List Char
  | _, [] => ([], [])
  | column, c :: rest =>
    if (c = '\r' ∨ c = '\n') ∨ column < width c then ([], c :: rest)
    else
      let (head, tail) := cutColumn (column - width c) rest
      (c :: head, tail)

/-- Cuts a text; a line behind the text is its end. -/
def cut : Nat → Nat → List Char → List Char × List Char
  | 0, column, text => cutColumn width column text
  | _ + 1, _, [] => ([], [])
  | line + 1, column, '\r' :: '\n' :: rest =>
    let (head, tail) := cut line column rest
    ('\r' :: '\n' :: head, tail)
  | line + 1, column, c :: rest =>
    let (head, tail) := cut (if c = '\r' ∨ c = '\n' then line else line + 1) column rest
    (c :: head, tail)

theorem cutColumn_append (column : Nat) (text : List Char) :
    (cutColumn width column text).1 ++ (cutColumn width column text).2 = text := by
  fun_induction cutColumn width column text with
  | case1 | case2 => rfl
  | case3 column c rest _ head tail cuts ih =>
    rw [cuts] at ih
    rw [← ih, List.cons_append]

theorem cut_append (line column : Nat) (text : List Char) :
    (cut width line column text).1 ++ (cut width line column text).2 = text := by
  fun_induction cut width line column text with
  | case1 column text => exact cutColumn_append width column text
  | case2 => rfl
  | case3 line column rest head tail cuts ih =>
    rw [cuts] at ih
    rw [← ih, List.cons_append, List.cons_append]
  | case4 line column c rest _ head tail cuts ih =>
    rw [cuts] at ih
    rw [← ih, List.cons_append]

theorem cutColumn_unbroken (column : Nat) (text : List Char) :
    Unbroken (cutColumn width column text).1 := by
  fun_induction cutColumn width column text with
  | case1 | case2 => exact Unbroken.nil
  | case3 column c rest inside head tail cuts ih =>
    rw [cuts] at ih
    exact unbroken_cons.mpr ⟨not_or.mp (not_or.mp inside).1, ih⟩

theorem cutColumn_tail (column : Nat) (text : List Char) :
    (splitCharacters (cutColumn width column text).2).tail = (splitCharacters text).tail := by
  fun_induction cutColumn width column text with
  | case1 | case2 => rfl
  | case3 column c rest inside head tail cuts ih =>
    rw [cuts] at ih
    rw [ih, splitCharacters_cons (not_or.mp (not_or.mp inside).1),
      tail_extendFirst c (splitCharacters_ne_nil _)]

/-- A line end that is not the first half of another one stays one when the text is cut further
down. -/
theorem splitCharacters_alone {c : Char} {head tail : List Char} (breaks : c = '\r' ∨ c = '\n')
    (alone : ∀ rest, c = '\r' → head ++ tail = '\n' :: rest → False) :
    splitCharacters (c :: head) = [] :: splitCharacters head := by
  rw [splitCharacters.eq_3 _ _ ?_, if_pos breaks]
  rintro rest isReturn rfl
  exact alone (rest ++ tail) isReturn rfl

theorem dropLast_extendFirst_take {lines others : List (List Char)} (c : Char) (count : Nat)
    (nonempty : lines ≠ []) (nonemptyToo : others ≠ [])
    (same : lines.dropLast = others.dropLast.take (count + 1)) :
    (extendFirst c lines).dropLast = (extendFirst c others).dropLast.take (count + 1) := by
  obtain ⟨first, rest, rfl⟩ := List.exists_cons_of_ne_nil nonempty
  obtain ⟨other, otherRest, rfl⟩ := List.exists_cons_of_ne_nil nonemptyToo
  cases rest with
  | nil =>
    cases otherRest with
    | nil => rfl
    | cons second more => simp at same
  | cons second more =>
    cases otherRest with
    | nil => simp at same
    | cons otherSecond otherMore =>
      simp only [extendFirst, List.dropLast_cons_cons, List.take_succ_cons, List.cons.injEq]
        at same ⊢
      exact ⟨⟨trivial, same.1⟩, same.2⟩

theorem cut_head (line column : Nat) (text : List Char) :
    (splitCharacters (cut width line column text).1).dropLast =
      (splitCharacters text).dropLast.take line := by
  fun_induction cut width line column text with
  | case1 column text =>
    rw [splitCharacters_single (cutColumn_unbroken width column text)]
    rfl
  | case2 => rfl
  | case3 line column rest head tail cuts ih =>
    rw [cuts] at ih
    rw [splitCharacters, splitCharacters,
      List.dropLast_cons_of_ne_nil (splitCharacters_ne_nil _),
      List.dropLast_cons_of_ne_nil (splitCharacters_ne_nil _), List.take_succ_cons, ← ih]
  | case4 line column c rest alone head tail cuts ih =>
    have whole := cut_append width (if c = '\r' ∨ c = '\n' then line else line + 1) column rest
    rw [cuts] at ih whole
    by_cases breaks : c = '\r' ∨ c = '\n'
    · rw [if_pos breaks] at ih
      rw [splitCharacters_alone breaks (fun later isReturn same =>
          alone later isReturn (whole.symm.trans same)),
        splitCharacters.eq_3 _ _ alone, if_pos breaks,
        List.dropLast_cons_of_ne_nil (splitCharacters_ne_nil _),
        List.dropLast_cons_of_ne_nil (splitCharacters_ne_nil _), List.take_succ_cons, ← ih]
    · rw [if_neg breaks] at ih
      rw [splitCharacters_cons (not_or.mp breaks), splitCharacters_cons (not_or.mp breaks)]
      exact dropLast_extendFirst_take c line (splitCharacters_ne_nil _) (splitCharacters_ne_nil _) ih

theorem cut_tail (line column : Nat) (text : List Char) :
    (splitCharacters (cut width line column text).2).tail =
      (splitCharacters text).drop (line + 1) := by
  fun_induction cut width line column text with
  | case1 column text =>
    rw [cutColumn_tail, List.drop_one]
  | case2 line => simp [splitCharacters]
  | case3 line column rest head tail cuts ih =>
    rw [cuts] at ih
    rw [ih, splitCharacters, List.drop_succ_cons]
  | case4 line column c rest alone head tail cuts ih =>
    rw [cuts] at ih
    by_cases breaks : c = '\r' ∨ c = '\n'
    · rw [if_pos breaks] at ih
      rw [ih, splitCharacters.eq_3 _ _ alone, if_pos breaks, List.drop_succ_cons]
    · rw [if_neg breaks] at ih
      obtain ⟨first, others, split⟩ := List.exists_cons_of_ne_nil (splitCharacters_ne_nil rest)
      rw [ih, splitCharacters_cons (not_or.mp breaks), split, extendFirst]
      rfl

end Cut

end Text

/-! ### Changes -/

namespace ContentChange

open Text

/-- The text with another text in place of a range. -/
def replace (width : Char → Nat) (range : Range) (inserted text : String) : String :=
  String.ofList
    ((cut width range.start.line.toNat range.start.character.toNat text.toList).1 ++
      (inserted.toList ++ (cut width range.stop.line.toNat range.stop.character.toNat text.toList).2))

/-- Changes one after the other, where each is about the text that the one before left. The texts
on the way are such as they are allowed to be. -/
inductive Edited (width : Char → Nat) (allowed : String → Prop) :
    List ContentChange → String → String → Prop where
  | done (text : String) : Edited width allowed [] text text
  | part {range : Range} {inserted : String} {rest : List ContentChange} {before after : String}
      (passes : allowed (replace width range inserted before))
      (later : Edited width allowed rest (replace width range inserted before) after) :
      Edited width allowed (.part range inserted :: rest) before after
  | whole {rest : List ContentChange} {given after : String} (before : String)
      (passes : allowed given) (later : Edited width allowed rest given after) :
      Edited width allowed (.whole :: rest) before after

/-- Whether the lines of a change count from zero, as they do in the protocol. -/
def Counted : ContentChange → Prop
  | part range _ => 0 ≤ range.start.line ∧ 0 ≤ range.stop.line
  | whole => True

section Lines

variable {width : Char → Nat}

theorem splitLines_eq (text : String) :
    splitLines text = (splitCharacters text.toList).map String.ofList := rfl

theorem replace_above (range : Range) (inserted text : String) :
    (splitLines text).dropLast.take range.start.line.toNat <+:
      (splitLines (replace width range inserted text)).dropLast := by
  simp only [splitLines_eq, replace, String.toList_ofList, ← List.map_dropLast, ← List.map_take]
  rw [← cut_head width _ range.start.character.toNat]
  exact (dropLast_splitCharacters_append _ _).map _

theorem replace_below (range : Range) (inserted text : String) :
    (splitLines text).drop (range.stop.line.toNat + 1) <:+
      splitLines (replace width range inserted text) := by
  simp only [splitLines_eq, replace, String.toList_ofList, ← List.map_drop]
  rw [← cut_tail width _ range.stop.character.toNat, ← List.append_assoc]
  exact ((tail_splitCharacters_append _ _).trans (List.tail_suffix _)).map _

/-! ### Lists of changes -/

/-- A change of a part that touches no line outside of a range. -/
def Within (range : LineRange) (change : ContentChange) : Prop :=
  ∃ own, change.lines? = some own ∧ range.first ≤ own.first ∧ own.last ≤ range.last

theorem linesFrom_within {lines range : LineRange} {changes : List ContentChange}
    (all : linesFrom lines changes = some range) :
    (range.first ≤ lines.first ∧ lines.last ≤ range.last) ∧
      ∀ change ∈ changes, change.Within range := by
  induction changes generalizing lines with
  | nil =>
    cases all
    simp
  | cons change rest ih =>
    unfold linesFrom at all
    split at all
    · rename_i own isOwn
      obtain ⟨⟨first, last⟩, others⟩ := ih all
      simp only [LineRange.union] at first last
      refine ⟨by omega, ?_⟩
      intro other member
      rcases List.mem_cons.mp member with rfl | behind
      · exact ⟨own, isOwn, by omega, by omega⟩
      · exact others other behind
    · contradiction

theorem changedLines?_within {range : LineRange} {changes : List ContentChange}
    (all : changedLines? changes = some range) : ∀ change ∈ changes, change.Within range := by
  cases changes with
  | nil => contradiction
  | cons change rest =>
    obtain ⟨own, isOwn, later⟩ := Option.bind_eq_some_iff.mp all
    obtain ⟨ends, others⟩ := linesFrom_within later
    intro other member
    rcases List.mem_cons.mp member with rfl | behind
    · exact ⟨own, isOwn, ends⟩
    · exact others other behind

theorem Within.part {lines : LineRange} {span : Range} {inserted : String}
    (within : (part span inserted).Within lines) :
    lines.first ≤ span.start.line ∧ span.start.line ≤ lines.last ∧ span.stop.line ≤ lines.last := by
  obtain ⟨own, isOwn, first, last⟩ := within
  cases isOwn
  simp only at first last
  omega

variable {allowed : String → Prop} {changes : List ContentChange} {before after : String}

/-- Lines above all changes stay where they are, whatever the changes do to those below. -/
theorem Edited.keeps_above (edited : Edited width allowed changes before after) {lines : LineRange}
    (within : ∀ change ∈ changes, change.Within lines) :
    (splitLines before).dropLast.take lines.first.toNat <+: (splitLines after).dropLast := by
  induction edited with
  | done text => exact List.take_prefix _ _
  | @part range inserted rest before after _ later ih =>
    have here := (within _ List.mem_cons_self).part
    have step : (splitLines before).dropLast.take lines.first.toNat <+:
        (splitLines (replace width range inserted before)).dropLast :=
      (List.take_prefix_take_left (by omega)).trans (replace_above range inserted before)
    have kept := ih fun change member => within change (List.mem_cons_of_mem _ member)
    -- what is kept is no longer than the lines above the changes
    refine List.IsPrefix.trans ?_ kept
    exact List.prefix_take_iff.mpr ⟨step, List.length_take_le _ _⟩
  | whole before passes later ih =>
    obtain ⟨own, isOwn, _⟩ := within _ List.mem_cons_self
    contradiction

/-- Lines below all changes stay, counted from the end, as long as the text never gets so short that
they come into the range of a change. -/
theorem Edited.keeps_below {total : Nat}
    (edited : Edited width (fun text => total ≤ (splitLines text).length) changes before after)
    {lines : LineRange} (within : ∀ change ∈ changes, change.Within lines)
    (counted : ∀ change ∈ changes, change.Counted) (kept : List String)
    (fits : (kept.length : Int) + lines.last + 1 ≤ total)
    (long : total ≤ (splitLines before).length) (held : kept <:+ splitLines before) :
    kept <:+ splitLines after := by
  induction edited with
  | done text => exact held
  | @part range inserted rest before after passes later ih =>
    have here := (within _ List.mem_cons_self).part
    have positive : 0 ≤ range.start.line ∧ 0 ≤ range.stop.line := counted _ List.mem_cons_self
    refine ih (fun change member => within change (List.mem_cons_of_mem _ member))
      (fun change member => counted change (List.mem_cons_of_mem _ member)) passes ?_
    refine List.IsSuffix.trans ?_ (replace_below range inserted before)
    refine List.suffix_of_suffix_length_le held (List.drop_suffix _ _) ?_
    rw [List.length_drop]
    omega
  | whole before passes later ih =>
    obtain ⟨own, isOwn, _⟩ := within _ List.mem_cons_self
    contradiction

theorem Edited.getElem?_above (edited : Edited width allowed changes before after)
    {lines : LineRange} (within : ∀ change ∈ changes, change.Within lines) {index : Nat}
    (above : (index : Int) < lines.first) (inside : index + 1 < (splitLines before).length) :
    (splitLines before)[index]? = (splitLines after)[index]? := by
  have kept := edited.keeps_above within
  have bound : index < ((splitLines before).dropLast.take lines.first.toNat).length := by
    rw [List.length_take, List.length_dropLast]
    omega
  obtain ⟨more, whole⟩ := kept
  have boundToo : index < (splitLines after).dropLast.length := by
    rw [← whole, List.length_append]
    omega
  calc (splitLines before)[index]?
      = ((splitLines before).dropLast.take lines.first.toNat)[index]? := by
        rw [List.getElem?_take_of_lt (by omega), List.getElem?_dropLast, if_pos (by omega)]
    _ = (splitLines after).dropLast[index]? := by rw [← whole, List.getElem?_append_left bound]
    _ = (splitLines after)[index]? := by
        rw [List.length_dropLast] at boundToo
        rw [List.getElem?_dropLast, if_pos boundToo]

theorem Edited.getElem?_below
    (edited : Edited width (fun text => (splitLines before).length ≤ (splitLines text).length)
      changes before after)
    (level : (splitLines after).length = (splitLines before).length)
    {lines : LineRange} (within : ∀ change ∈ changes, change.Within lines)
    (counted : ∀ change ∈ changes, change.Counted) {index : Nat}
    (below : lines.last < index) :
    (splitLines before)[index]? = (splitLines after)[index]? := by
  by_cases inside : index < (splitLines before).length
  · have kept := edited.keeps_below within counted ((splitLines before).drop index)
      (by rw [List.length_drop]; omega) (Nat.le_refl _) (List.drop_suffix _ _)
    rw [List.suffix_iff_eq_drop, List.length_drop, level,
      show (splitLines before).length - ((splitLines before).length - index) = index by omega] at kept
    calc (splitLines before)[index]?
        = ((splitLines before).drop index)[0]? := by rw [List.getElem?_drop, Nat.add_zero]
      _ = ((splitLines after).drop index)[0]? := by rw [kept]
      _ = (splitLines after)[index]? := by rw [List.getElem?_drop, Nat.add_zero]
  · rw [List.getElem?_eq_none (by omega), List.getElem?_eq_none (by omega)]

end Lines

end ContentChange

end LanguageBridge
