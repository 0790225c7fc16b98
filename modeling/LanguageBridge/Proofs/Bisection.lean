import LanguageBridge.Bisection

namespace LanguageBridge.Bisection

/-! Looking up by halving finds what going through the whole list finds, as long as the entries
are intervals that follow one another. -/

/-- Whatever has been ruled out on both sides stays ruled out while the search narrows down. -/
theorem narrow_splits {entries : List Int} (ascending : entries.Pairwise (· ≤ ·)) (wanted : Int)
    (low high : Nat) (ordered : low ≤ high) (bounded : high ≤ entries.length)
    (below : ∀ (i : Nat) (inside : i < entries.length), i < low → entries[i] ≤ wanted)
    (above : ∀ (i : Nat) (inside : i < entries.length), high ≤ i → wanted < entries[i]) :
    narrow entries wanted low high ≤ entries.length ∧
      (∀ (i : Nat) (inside : i < entries.length),
        i < narrow entries wanted low high → entries[i] ≤ wanted) ∧
      (∀ (i : Nat) (inside : i < entries.length),
        narrow entries wanted low high ≤ i → wanted < entries[i]) := by
  fun_induction narrow entries wanted low high with
  | case1 low high open? middle less ih =>
    have inside : middle < entries.length := by omega
    rw [List.getD_eq_getElem?_getD, List.getElem?_eq_getElem inside, Option.getD_some] at less
    -- the upper bound moves down to the middle
    apply ih (by omega) (by omega) below
    intro i bound after
    by_cases same : i = middle
    · subst same
      exact less
    · have rising := List.pairwise_iff_getElem.mp ascending middle i inside bound (by omega)
      omega
  | case2 low high open? middle notLess ih =>
    have inside : middle < entries.length := by omega
    rw [List.getD_eq_getElem?_getD, List.getElem?_eq_getElem inside, Option.getD_some] at notLess
    -- the lower bound moves up past the middle
    refine ih (by omega) bounded ?_ above
    intro i bound before
    by_cases same : i = middle
    · subst same
      omega
    · have rising := List.pairwise_iff_getElem.mp ascending i middle bound inside (by omega)
      omega
  | case3 low high closed =>
    have meet : low = high := by omega
    subst meet
    exact ⟨bounded, below, above⟩

theorem last?_eq_none {entries : List Int} (ascending : entries.Pairwise (· ≤ ·)) {wanted : Int}
    (absent : last? entries wanted = none) : ∀ entry ∈ entries, wanted < entry := by
  have splits := narrow_splits ascending wanted 0 entries.length (Nat.zero_le _) (Nat.le_refl _)
    (by intro i _ before; omega) (by intro i inside after; omega)
  intro entry member
  obtain ⟨i, inside, rfl⟩ := List.getElem_of_mem member
  unfold last? at absent
  split at absent
  · rename_i empty
    exact splits.2.2 i inside (by omega)
  · contradiction

theorem last?_eq_some {entries : List Int} (ascending : entries.Pairwise (· ≤ ·)) {wanted : Int}
    {place : Nat} (found : last? entries wanted = some place) :
    ∃ inside : place < entries.length, entries[place] ≤ wanted ∧
      ∀ (i : Nat) (inside : i < entries.length), place < i → wanted < entries[i] := by
  have splits := narrow_splits ascending wanted 0 entries.length (Nat.zero_le _) (Nat.le_refl _)
    (by intro i _ before; omega) (by intro i inside after; omega)
  unfold last? at found
  split at found
  · contradiction
  · rename_i count counted
    cases found
    have inside : place < entries.length := by omega
    refine ⟨inside, splits.2.1 place inside (by omega), ?_⟩
    intro i bound after
    exact splits.2.2 i bound (by omega)

section Intervals

variable {α : Type} {entries : List α} {start stop : α → Int}

theorem starts_ascending (valid : ∀ entry ∈ entries, start entry ≤ stop entry)
    (apart : entries.Pairwise fun a b => stop a < start b) :
    (entries.map start).Pairwise (· ≤ ·) := by
  rw [List.pairwise_map]
  refine apart.imp_of_mem ?_
  intro a b inA _ before
  have := valid a inA
  omega

/-- Intervals that follow one another: at most one holds a line, and it is found by halving. -/
theorem filter_lookUp?_eq_find? (valid : ∀ entry ∈ entries, start entry ≤ stop entry)
    (apart : entries.Pairwise fun a b => stop a < start b) (line : Int) :
    (lookUp? (entries.map start) entries line).filter (fun entry => line ≤ stop entry) =
      entries.find? fun entry => start entry ≤ line && line ≤ stop entry := by
  have ascending := starts_ascending valid apart
  symm
  cases found : last? (entries.map start) line with
  | none =>
    have late := last?_eq_none ascending found
    rw [show lookUp? (entries.map start) entries line = none by simp [lookUp?, found]]
    rw [Option.filter_none, List.find?_eq_none]
    intro entry member
    have := late (start entry) (List.mem_map_of_mem member)
    simp only [Bool.and_eq_true, decide_eq_true_eq]
    omega
  | some place =>
    obtain ⟨inMap, early, late⟩ := last?_eq_some ascending found
    have inside : place < entries.length := by simpa using inMap
    rw [List.getElem_map] at early
    have picked : lookUp? (entries.map start) entries line = some entries[place] := by
      simp [lookUp?, found, inside]
    -- everything before the place found ends before its start, everything behind starts later
    have before : ∀ (i : Nat) (bound : i < entries.length), i < place →
        stop entries[i] < line := by
      intro i bound less
      have := List.pairwise_iff_getElem.mp apart i place bound inside less
      omega
    have behind : ∀ (i : Nat) (bound : i < entries.length), place < i →
        line < start entries[i] := by
      intro i bound more
      have later := late i (by simpa using bound) more
      rwa [List.getElem_map] at later
    rw [picked]
    by_cases held : line ≤ stop entries[place]
    · rw [Option.filter_some, if_pos (by simpa using held), List.find?_eq_some_iff_getElem]
      refine ⟨by simp [early, held], place, inside, rfl, ?_⟩
      intro i less
      have := before i (by omega) less
      simp only [Bool.not_eq_true', Bool.and_eq_false_iff, decide_eq_false_iff_not]
      omega
    · rw [Option.filter_some, if_neg (by simpa using held), List.find?_eq_none]
      intro entry member
      obtain ⟨i, bound, rfl⟩ := List.getElem_of_mem member
      simp only [Bool.and_eq_true, decide_eq_true_eq]
      rcases Nat.lt_trichotomy i place with less | same | more
      · have := before i bound less
        omega
      · subst same
        omega
      · have := behind i bound more
        omega

theorem find?_eq_some_iff (apart : entries.Pairwise fun a b => stop a < start b) (line : Int)
    (entry : α) :
    (entries.find? fun entry => start entry ≤ line && line ≤ stop entry) = some entry ↔
      entry ∈ entries ∧ start entry ≤ line ∧ line ≤ stop entry := by
  induction entries with
  | nil => simp
  | cons first rest ih =>
    obtain ⟨behind, restApart⟩ := List.pairwise_cons.mp apart
    rw [List.find?_cons, List.mem_cons]
    by_cases held : start first ≤ line ∧ line ≤ stop first
    · rw [show (decide (start first ≤ line) && decide (line ≤ stop first)) = true by
        simpa using held]
      constructor
      · intro same
        cases same
        exact ⟨Or.inl rfl, held⟩
      · rintro ⟨same | member, inside⟩
        · rw [same]
        · have := behind entry member
          omega
    · rw [show (decide (start first ≤ line) && decide (line ≤ stop first)) = false by
        simpa using held, ih restApart]
      constructor
      · rintro ⟨member, inside⟩
        exact ⟨Or.inr member, inside⟩
      · rintro ⟨same | member, inside⟩
        · exact absurd (same ▸ inside) held
        · exact ⟨member, inside⟩

end Intervals

end LanguageBridge.Bisection
