namespace LanguageBridge

/-! Finite maps that remember the order in which their keys first came in. -/

structure Table (κ ν : Type) where
  entries : List (κ × ν) := []
deriving DecidableEq, Repr, Inhabited

namespace Table

variable {κ ν μ : Type} [DecidableEq κ]

def empty : Table κ ν := ⟨[]⟩

def get? (table : Table κ ν) (key : κ) : Option ν :=
  (table.entries.find? fun entry => entry.1 = key).map Prod.snd

def contains (table : Table κ ν) (key : κ) : Bool :=
  (table.get? key).isSome

def keys (table : Table κ ν) : List κ :=
  table.entries.map Prod.fst

def values (table : Table κ ν) : List ν :=
  table.entries.map Prod.snd

def size (table : Table κ ν) : Nat :=
  table.entries.length

/-- Replaces the value under a known key where it stands; a new key goes to the end. -/
def put (table : Table κ ν) (key : κ) (value : ν) : Table κ ν :=
  if table.contains key then
    ⟨table.entries.map fun entry => if entry.1 = key then (key, value) else entry⟩
  else
    ⟨table.entries ++ [(key, value)]⟩

def putUnder (table : Table κ ν) (key : Option κ) (value : ν) : Table κ ν :=
  match key with
  | some key => table.put key value
  | none => table

def erase (table : Table κ ν) (key : κ) : Table κ ν :=
  ⟨table.entries.filter fun entry => entry.1 ≠ key⟩

def putAll (table additions : Table κ ν) : Table κ ν :=
  additions.entries.foldl (fun held entry => held.put entry.1 entry.2) table

def adjust (table : Table κ ν) (key : κ) (change : ν → ν) : Table κ ν :=
  ⟨table.entries.map fun entry => if entry.1 = key then (key, change entry.2) else entry⟩

def mapValues (table : Table κ ν) (change : ν → μ) : Table κ μ :=
  ⟨table.entries.map fun entry => (entry.1, change entry.2)⟩

def filterValues (table : Table κ ν) (keep : ν → Bool) : Table κ ν :=
  ⟨table.entries.filter fun entry => keep entry.2⟩

/-! ### What is found -/

theorem get?_eq_none_iff {table : Table κ ν} {key : κ} :
    table.get? key = none ↔ key ∉ table.keys := by
  rw [get?, Option.map_eq_none_iff, List.find?_eq_none, keys, List.mem_map, not_exists]
  constructor
  · rintro absent entry ⟨member, same⟩
    exact absent entry member (by simp [same])
  · intro absent entry member same
    exact absent entry ⟨member, by simpa using same⟩

theorem mem_keys_of_get? {table : Table κ ν} {key : κ} {value : ν}
    (found : table.get? key = some value) : key ∈ table.keys := by
  by_cases known : key ∈ table.keys
  · exact known
  · rw [get?_eq_none_iff.mpr known] at found
    contradiction

/-! ### What is found after a change -/

theorem get?_cons (entry : κ × ν) (entries : List (κ × ν)) (key : κ) :
    (⟨entry :: entries⟩ : Table κ ν).get? key =
      if entry.1 = key then some entry.2 else (⟨entries⟩ : Table κ ν).get? key := by
  by_cases same : entry.1 = key <;> simp [get?, same]

theorem get?_tabulate (keys : List κ) (value : κ → ν) (key : κ) :
    (⟨keys.map fun known => (known, value known)⟩ : Table κ ν).get? key =
      if key ∈ keys then some (value key) else none := by
  induction keys with
  | nil => rfl
  | cons first rest ih =>
    rw [List.map_cons, get?_cons, ih]
    by_cases same : first = key
    · subst same
      simp
    · simp [same, Ne.symm same]

theorem put_tabulate (keys : List κ) (value : κ → ν) (key : κ) (new : ν) :
    (⟨keys.map fun known => (known, value known)⟩ : Table κ ν).put key new =
      ⟨(if key ∈ keys then keys else keys ++ [key]).map fun known =>
        (known, if known = key then new else value known)⟩ := by
  unfold put
  rw [contains, get?_tabulate]
  by_cases member : key ∈ keys
  · simp only [if_pos member, Option.isSome_some, if_true, List.map_map]
    congr 1
    refine List.map_congr_left fun known _ => ?_
    by_cases same : known = key <;> simp [same]
  · simp only [if_neg member, Option.isSome_none, Bool.false_eq_true, if_false, List.map_append,
      List.map_singleton, if_true]
    congr 2
    refine List.map_congr_left fun known isKnown => ?_
    have other : known ≠ key := fun same => member (same ▸ isKnown)
    rw [if_neg other]

/-- Replacing the value under one key changes what is found there and nowhere else. -/
theorem get?_replace (entries : List (κ × ν)) (key other : κ) (value : ν) :
    (⟨entries.map fun entry => if entry.1 = key then (key, value) else entry⟩ :
        Table κ ν).get? other =
      if other = key then ((⟨entries⟩ : Table κ ν).get? key).map fun _ => value
      else (⟨entries⟩ : Table κ ν).get? other := by
  induction entries with
  | nil => by_cases same : other = key <;> simp [get?, same]
  | cons entry rest ih =>
    rw [List.map_cons, get?_cons, ih, get?_cons, get?_cons]
    by_cases here : entry.1 = key <;> by_cases same : other = key <;>
      by_cases found : entry.1 = other <;> simp_all

theorem get?_append_single (entries : List (κ × ν)) (key other : κ) (value : ν) :
    (⟨entries ++ [(key, value)]⟩ : Table κ ν).get? other =
      match (⟨entries⟩ : Table κ ν).get? other with
      | some found => some found
      | none => if other = key then some value else none := by
  induction entries with
  | nil => by_cases same : other = key <;> simp [get?, same, eq_comm]
  | cons entry rest ih =>
    rw [List.cons_append, get?_cons, get?_cons, ih]
    by_cases here : entry.1 = other <;> simp [here]

theorem get?_put (table : Table κ ν) (key other : κ) (value : ν) :
    (table.put key value).get? other = if other = key then some value else table.get? other := by
  unfold put
  cases held : table.get? key with
  | some old =>
    rw [if_pos (by simp [contains, held]), get?_replace]
    by_cases same : other = key
    · simp [same, show (⟨table.entries⟩ : Table κ ν).get? key = some old from held]
    · simp [same]
  | none =>
    rw [if_neg (by simp [contains, held]), get?_append_single]
    by_cases same : other = key
    · subst same
      simp [show (⟨table.entries⟩ : Table κ ν).get? other = none from held]
    · cases table.get? other <;> simp [same]

theorem get?_erase (table : Table κ ν) (key other : κ) :
    (table.erase key).get? other = if other = key then none else table.get? other := by
  obtain ⟨entries⟩ := table
  induction entries with
  | nil => by_cases same : other = key <;> simp [erase, get?]
  | cons entry rest ih =>
    simp only [erase] at ih ⊢
    by_cases here : entry.1 = key
    · rw [List.filter_cons_of_neg (by simp [here]), ih, get?_cons]
      by_cases same : other = key
      · simp [same]
      · simp [same, here, Ne.symm same]
    · rw [List.filter_cons_of_pos (by simp [here]), get?_cons, ih, get?_cons]
      by_cases same : other = key
      · subst same; simp [here]
      · simp [same]

theorem of_get?_put {table : Table κ ν} {key other : κ} {value found : ν}
    (isFound : (table.put key value).get? other = some found) :
    (other = key ∧ found = value) ∨ (other ≠ key ∧ table.get? other = some found) := by
  rw [get?_put] at isFound
  split at isFound
  · exact Or.inl ⟨by assumption, (Option.some.inj isFound).symm⟩
  · exact Or.inr ⟨by assumption, isFound⟩

theorem of_get?_erase {table : Table κ ν} {key other : κ} {found : ν}
    (isFound : (table.erase key).get? other = some found) :
    other ≠ key ∧ table.get? other = some found := by
  rw [get?_erase] at isFound
  split at isFound
  · contradiction
  · exact ⟨by assumption, isFound⟩

theorem get?_adjust (table : Table κ ν) (key other : κ) (change : ν → ν) :
    (table.adjust key change).get? other =
      if other = key then (table.get? key).map change else table.get? other := by
  obtain ⟨entries⟩ := table
  unfold adjust
  induction entries with
  | nil => by_cases same : other = key <;> simp [get?, same]
  | cons entry rest ih =>
    simp only [List.map_cons, get?_cons] at ih ⊢
    rw [ih]
    by_cases here : entry.1 = key <;> by_cases same : other = key <;>
      by_cases found : entry.1 = other <;> simp_all

theorem get?_mapValues (table : Table κ ν) (key : κ) (change : ν → μ) :
    (table.mapValues change).get? key = (table.get? key).map change := by
  obtain ⟨entries⟩ := table
  unfold mapValues
  induction entries with
  | nil => rfl
  | cons entry rest ih =>
    simp only [List.map_cons, get?_cons] at ih ⊢
    rw [ih]
    split <;> rfl

/-! ### Entries and what is found -/

def Distinct (table : Table κ ν) : Prop :=
  table.keys.Nodup

theorem mem_entries_of_get? {table : Table κ ν} {key : κ} {value : ν}
    (found : table.get? key = some value) : (key, value) ∈ table.entries := by
  obtain ⟨entry, seen, rfl⟩ := Option.map_eq_some_iff.mp found
  have same := List.find?_some seen
  rw [decide_eq_true_eq] at same
  rw [← same]
  exact List.mem_of_find?_eq_some seen

theorem mem_entries_of_put {table : Table κ ν} {key : κ} {value : ν} {entry : κ × ν}
    (member : entry ∈ (table.put key value).entries) :
    entry = (key, value) ∨ entry ∈ table.entries := by
  unfold put at member
  split at member
  · obtain ⟨old, known, same⟩ := List.mem_map.mp member
    split at same
    · exact Or.inl same.symm
    · exact Or.inr (same ▸ known)
  · rcases List.mem_append.mp member with known | added
    · exact Or.inr known
    · exact Or.inl (List.mem_singleton.mp added)

theorem mem_values_of_get? {table : Table κ ν} {key : κ} {value : ν}
    (found : table.get? key = some value) : value ∈ table.values :=
  List.mem_map_of_mem (f := Prod.snd) (mem_entries_of_get? found)

theorem Distinct.get?_of_mem {table : Table κ ν} (distinct : table.Distinct) {key : κ} {value : ν}
    (member : (key, value) ∈ table.entries) : table.get? key = some value := by
  obtain ⟨entries⟩ := table
  induction entries with
  | nil => contradiction
  | cons entry rest ih =>
    obtain ⟨fresh, restDistinct⟩ := List.nodup_cons.mp distinct
    rw [get?_cons]
    rcases List.mem_cons.mp member with same | behind
    · rw [← same, if_pos rfl]
    · have other : entry.1 ≠ key := by
        rintro rfl
        exact fresh (List.mem_map.mpr ⟨_, behind, rfl⟩)
      rw [if_neg other]
      exact ih restDistinct behind

theorem keys_replace (entries : List (κ × ν)) (key : κ) (value : ν) :
    (entries.map fun entry => if entry.1 = key then (key, value) else entry).map Prod.fst =
      entries.map Prod.fst := by
  rw [List.map_map]
  refine List.map_congr_left fun entry _ => ?_
  by_cases same : entry.1 = key <;> simp [same]

theorem Distinct.put {table : Table κ ν} (distinct : table.Distinct) (key : κ) (value : ν) :
    (table.put key value).Distinct := by
  unfold Distinct keys Table.put
  split
  · rw [keys_replace]
    exact distinct
  · rename_i absent
    have fresh : key ∉ table.keys := by
      rw [← get?_eq_none_iff]
      simpa [contains] using absent
    rw [List.map_append, List.nodup_append]
    refine ⟨distinct, by simp, ?_⟩
    intro known inTable added isKey
    rw [List.map_singleton, List.mem_singleton] at isKey
    rintro rfl
    rw [isKey] at inTable
    exact fresh inTable

theorem Distinct.erase {table : Table κ ν} (distinct : table.Distinct) (key : κ) :
    (table.erase key).Distinct :=
  List.Nodup.sublist (List.Sublist.map Prod.fst List.filter_sublist) distinct

end Table

end LanguageBridge
