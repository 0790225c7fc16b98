namespace LanguageBridge

/-! Stable sorting. A sorted list is settled by the order in which tied items stand, and sorting does
not change that order. -/

/-- An order in which any two items can be compared. -/
structure Sortable {α : Type} (order : α → α → Bool) : Prop where
  trans : ∀ a b c, order a b = true → order b c = true → order a c = true
  total : ∀ a b, (order a b || order b a) = true

/-- Neither of two items has to stand before the other. -/
def tied {α : Type} (order : α → α → Bool) (a b : α) : Bool :=
  order a b && order b a

theorem filter_and_of_implied {α : Type} {items : List α} {keep other : α → Bool}
    (implied : ∀ a ∈ items, keep a = true → other a = true) :
    items.filter (fun a => keep a && other a) = items.filter keep ∧
      items.filter (fun a => keep a && !other a) = [] := by
  constructor
  · refine List.filter_congr fun a member => ?_
    cases held : keep a with
    | false => rfl
    | true => simp [implied a member held]
  · refine List.filter_eq_nil_iff.mpr fun a member both => ?_
    rw [Bool.and_eq_true] at both
    simp [implied a member both.1] at both

theorem filter_eq_append_of_uniform {α : Type} {items : List α} {keep early : α → Bool}
    (uniform : (∀ a ∈ items, keep a = true → early a = true) ∨
      ∀ a ∈ items, keep a = true → (!early a) = true) :
    items.filter keep =
      (items.filter early).filter keep ++ (items.filter fun a => !early a).filter keep := by
  rw [List.filter_filter, List.filter_filter]
  rcases uniform with allEarly | allLate
  · obtain ⟨kept, dropped⟩ := filter_and_of_implied allEarly
    rw [kept, dropped, List.append_nil]
  · obtain ⟨kept, dropped⟩ := filter_and_of_implied allLate
    simp only [Bool.not_not] at dropped
    rw [kept, dropped, List.nil_append]

namespace Sortable

variable {α : Type} {order : α → α → Bool} {first second : List α}

section

variable (sortable : Sortable order)
include sortable

theorem refl (a : α) : order a a = true := by
  simpa using sortable.total a a

theorem tied_self (a : α) : tied order a a = true := by
  simp [tied, sortable.refl a]

theorem order_of_tied {a b c : α} (left : tied order a b = true) (right : tied order a c = true) :
    order b c = true := by
  simp only [tied, Bool.and_eq_true] at left right
  exact sortable.trans b a c left.2 right.1

theorem mergeSort_sorted (items : List α) :
    (items.mergeSort order).Pairwise fun a b => order a b = true :=
  List.pairwise_mergeSort sortable.trans sortable.total items

theorem filter_tied_mergeSort (items : List α) (item : α) :
    (items.mergeSort order).filter (tied order item) = items.filter (tied order item) := by
  have level : (items.filter (tied order item)).Pairwise fun a b => order a b = true := by
    refine List.pairwise_of_forall_mem_list fun a memberA b memberB => ?_
    exact sortable.order_of_tied (List.mem_filter.mp memberA).2 (List.mem_filter.mp memberB).2
  have kept := (List.sublist_mergeSort sortable.trans sortable.total level
    List.filter_sublist).filter (tied order item)
  rw [List.filter_filter] at kept
  simp only [Bool.and_self] at kept
  have sameLength := ((List.mergeSort_perm items order).filter (tied order item)).length_eq
  exact (kept.eq_of_length sameLength.symm).symm

theorem mem_of_ties
    (ties : ∀ item, first.filter (tied order item) = second.filter (tied order item)) {item : α}
    (member : item ∈ first) : item ∈ second := by
  have here : item ∈ first.filter (tied order item) :=
    List.mem_filter.mpr ⟨member, sortable.tied_self item⟩
  rw [ties item] at here
  exact (List.mem_filter.mp here).1

theorem head_le {head item : α} {rest : List α}
    (sorted : (head :: rest).Pairwise fun a b => order a b = true) (member : item ∈ head :: rest) :
    order head item = true := by
  rcases List.mem_cons.mp member with rfl | behind
  · exact sortable.refl _
  · exact List.rel_of_pairwise_cons sorted behind

theorem eq_of_ties (sorted : first.Pairwise fun a b => order a b = true)
    (sortedToo : second.Pairwise fun a b => order a b = true)
    (ties : ∀ item, first.filter (tied order item) = second.filter (tied order item)) :
    first = second := by
  induction first generalizing second with
  | nil =>
    refine (List.eq_nil_iff_forall_not_mem.mpr fun item member => ?_).symm
    exact List.not_mem_nil (sortable.mem_of_ties (fun item => (ties item).symm) member)
  | cons head rest ih =>
    cases second with
    | nil => exact absurd (sortable.mem_of_ties ties List.mem_cons_self) List.not_mem_nil
    | cons other others =>
      -- each head stands in the other list too, so the two are tied
      have up := sortable.head_le sorted
        (sortable.mem_of_ties (fun item => (ties item).symm) List.mem_cons_self)
      have down := sortable.head_le sortedToo (sortable.mem_of_ties ties List.mem_cons_self)
      have level : tied order head other = true := by simp [tied, up, down]
      have here := ties head
      rw [List.filter_cons_of_pos (sortable.tied_self head), List.filter_cons_of_pos level] at here
      obtain rfl := (List.cons.inj here).1
      congr 1
      refine ih (List.Pairwise.of_cons sorted) (List.Pairwise.of_cons sortedToo) fun item => ?_
      have both := ties item
      rw [List.filter_cons, List.filter_cons] at both
      split at both
      · exact (List.cons.inj both).2
      · exact both

/-- Where some items have to stand before all others, the two kinds can be sorted by themselves. -/
theorem mergeSort_eq_append (items : List α) (early : α → Bool)
    (apart : ∀ a ∈ items, ∀ b ∈ items, early a = true → early b = false → order b a = false) :
    items.mergeSort order =
      (items.filter early).mergeSort order ++
        (items.filter fun item => !early item).mergeSort order := by
  refine sortable.eq_of_ties (sortable.mergeSort_sorted _) ?_ fun item => ?_
  · refine List.pairwise_append.mpr
      ⟨sortable.mergeSort_sorted _, sortable.mergeSort_sorted _, ?_⟩
    intro a memberA b memberB
    obtain ⟨knownA, isEarly⟩ := List.mem_filter.mp (List.mem_mergeSort.mp memberA)
    obtain ⟨knownB, isLate⟩ := List.mem_filter.mp (List.mem_mergeSort.mp memberB)
    have total := sortable.total a b
    rw [apart a knownA b knownB isEarly (by simpa using isLate), Bool.or_false] at total
    exact total
  · rw [List.filter_append, sortable.filter_tied_mergeSort, sortable.filter_tied_mergeSort,
      sortable.filter_tied_mergeSort]
    apply filter_eq_append_of_uniform
    -- an early item that is tied leaves no room for a late one
    by_cases found : ∃ a ∈ items, tied order item a = true ∧ early a = true
    · obtain ⟨a, knownA, level, isEarly⟩ := found
      refine Or.inl fun b knownB levelToo => ?_
      have before := sortable.order_of_tied levelToo level
      cases isLate : early b with
      | true => rfl
      | false => exact absurd before (by simp [apart a knownA b knownB isEarly isLate])
    · refine Or.inr fun b knownB level => ?_
      cases isEarly : early b with
      | false => rfl
      | true => exact absurd ⟨b, knownB, level, isEarly⟩ found

end

end Sortable

end LanguageBridge
