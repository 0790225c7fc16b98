import LanguageBridge.Proofs.Mapping.Merging
import LanguageBridge.Proofs.Sorting
import LanguageBridge.Proofs.Store.Anchoring

namespace LanguageBridge

/-! The symbols of several languages in one list. Symbols are all brought into one form, none is lost, and
those that begin at the same place stay in the order in which they came. -/

/-- Symbols in a tree, or in a flat list where each names its place. -/
inductive SymbolForm where
  | tree
  | flat
deriving DecidableEq, Repr

namespace Item

/-- Where a symbol begins. -/
def start : Item → Position
  | documentSymbol symbol => symbol.range.start
  | symbolInformation symbol => symbol.location.range.start
  | _ => default

def HasForm : SymbolForm → Item → Prop
  | .tree, item => ∃ symbol, item = .documentSymbol symbol
  | .flat, item => ∃ symbol, item = .symbolInformation symbol

/-- A flat symbol has one range only, and no children. In a tree its container is a detail. -/
def inForm : SymbolForm → Item → Item
  | .tree, symbolInformation symbol =>
    documentSymbol
      { name := symbol.name
        kind := symbol.kind
        range := symbol.location.range
        selectionRange := symbol.location.range
        detail := symbol.containerName
        children := none
        rest := [] }
  | _, item => item

theorem start_inForm (form : SymbolForm) (item : Item) : (item.inForm form).start = item.start := by
  cases form <;> cases item <;> rfl

theorem Typed.asDocumentSymbol {item : Item} (typed : item.Typed .documentSymbol) :
    item.asDocumentSymbol = item.inForm .tree ∧ (item.inForm .tree).HasForm .tree := by
  rcases typed.symbol with ⟨symbol, rfl⟩ | ⟨symbol, rfl⟩
  · exact ⟨rfl, symbol, rfl⟩
  · exact ⟨rfl, _, rfl⟩

theorem Typed.isDocumentSymbol_iff {item : Item} (typed : item.Typed .documentSymbol) :
    item.isDocumentSymbol = true ↔ ∃ symbol, item = .documentSymbol symbol := by
  rcases typed.symbol with ⟨symbol, rfl⟩ | ⟨symbol, rfl⟩ <;> simp [isDocumentSymbol]

end Item

/-! ### Sorting by place -/

section Places

variable {α : Type} (place : α → Position)

theorem placeOrder_sortable : Sortable fun a b => (place a).before (place b) where
  trans a b c := by
    simp only [Position.before_iff]
    omega
  total a b := by
    rw [Bool.or_eq_true, Position.before_iff, Position.before_iff]
    omega

theorem tied_placeOrder (item : α) :
    tied (fun a b => (place a).before (place b)) item = fun other => place other = place item := by
  funext other
  rw [Bool.eq_iff_iff, decide_eq_true_eq, tied, Bool.and_eq_true, Position.before_iff,
    Position.before_iff]
  constructor
  · intro both
    obtain ⟨line, character⟩ : (place other).line = (place item).line ∧
        (place other).character = (place item).character := by omega
    cases other : place other
    cases item : place item
    simp_all
  · intro same
    rw [same]
    omega

theorem filter_place_mergeSort (items : List α) (wanted : Position) :
    (items.mergeSort fun a b => (place a).before (place b)).filter (fun item => place item = wanted) =
      items.filter fun item => place item = wanted := by
  by_cases there : ∃ item ∈ items, place item = wanted
  · obtain ⟨item, _, rfl⟩ := there
    have kept := (placeOrder_sortable place).filter_tied_mergeSort items item
    rwa [tied_placeOrder] at kept
  · have nobody : ∀ item ∈ items, ¬ decide (place item = wanted) = true := by
      intro item member here
      exact there ⟨item, member, by simpa using here⟩
    rw [List.filter_eq_nil_iff.mpr nobody, List.filter_eq_nil_iff]
    exact fun item member => nobody item (List.mem_mergeSort.mp member)

end Places

theorem Item.sortBy_stable {start? : Item → Option Position} {part : String} {items : List Item}
    (placed : ∀ item ∈ items, start? item = some item.start) :
    ∃ sorted, sortBy start? part items = .ok sorted ∧ sorted.Perm items ∧
      (sorted.Pairwise fun a b => a.start.before b.start = true) ∧
      ∀ place, sorted.filter (fun item => item.start = place) =
        items.filter fun item => item.start = place := by
  have found : items.find? (fun item => (start? item).isNone) = none := by
    rw [List.find?_eq_none]
    intro item member
    simp [placed item member]
  let place := fun item => (start? item).getD default
  have isPlace : ∀ item ∈ items, place item = item.start := by
    intro item member
    simp [place, placed item member]
  have members : ∀ item ∈ items.mergeSort fun a b => (place a).before (place b), item ∈ items :=
    fun item => List.mem_mergeSort.mp
  refine ⟨items.mergeSort fun a b => (place a).before (place b), ?_, List.mergeSort_perm _ _, ?_, ?_⟩
  · simp only [sortBy, found]
    rfl
  · refine ((placeOrder_sortable place).mergeSort_sorted items).imp_of_mem ?_
    intro a b inA inB
    rw [isPlace a (members a inA), isPlace b (members b inB)]
    exact id
  · intro wanted
    have same : ∀ item ∈ items, decide (item.start = wanted) = decide (place item = wanted) := by
      intro item member
      rw [isPlace item member]
    rw [List.filter_congr fun item member => same item (members item member), List.filter_congr same]
    exact filter_place_mergeSort place items wanted

/-! ### Merging -/

theorem allElements_eq_items {method : Method} {answers : List Answer}
    (typed : ∀ answer ∈ answers, answer.Typed method) :
    allElements answers = .ok (answers.flatMap Answer.items) := by
  induction answers with
  | nil => rfl
  | cons answer rest ih =>
    have others := ih fun other member => typed other (List.mem_cons_of_mem answer member)
    have here := typed answer List.mem_cons_self
    cases answer with
    | null => simp [allElements, others, Answer.filledElements, Answer.elements, Answer.items]
    | one item => exact here.elim
    | many items =>
      simp [allElements, others, Answer.filledElements, Answer.elements, Answer.items]

theorem typed_of_mem_items {method : Method} {answers : List Answer}
    (typed : ∀ answer ∈ answers, answer.Typed method) :
    ∀ item ∈ answers.flatMap Answer.items, item.Typed method := by
  intro item member
  obtain ⟨answer, isAnswer, isItem⟩ := List.mem_flatMap.mp member
  have here := typed answer isAnswer
  cases answer with
  | null => contradiction
  | one single => exact here.elim
  | many items => exact here item isItem

/-- Symbols are put in order in the form of a tree if one of them belongs to a tree, and else as they
are. -/
theorem orderSymbols_eq {given : List Item} (typed : ∀ item ∈ given, item.Typed .documentSymbol) :
    ∃ form : SymbolForm, (form = .tree ↔ ∃ symbol, .documentSymbol symbol ∈ given) ∧
      (∀ item ∈ given, (item.inForm form).HasForm form) ∧
      ∃ merged, orderSymbols given = .ok merged ∧ merged.Perm (given.map (Item.inForm form)) ∧
        (merged.Pairwise fun entry other => entry.start.before other.start = true) ∧
        ∀ place, merged.filter (fun entry => entry.start = place) =
          (given.map (Item.inForm form)).filter fun entry => entry.start = place := by
  unfold orderSymbols
  split
  · rename_i mixed
    obtain ⟨item, member, isTree⟩ := List.any_eq_true.mp mixed
    obtain ⟨symbol, rfl⟩ := (typed item member).isDocumentSymbol_iff.mp isTree
    have converted : given.map Item.asDocumentSymbol = given.map (Item.inForm .tree) :=
      List.map_congr_left fun item member => (typed item member).asDocumentSymbol.1
    have formed : ∀ item ∈ given, (item.inForm .tree).HasForm .tree :=
      fun item member => (typed item member).asDocumentSymbol.2
    refine ⟨.tree, ⟨fun _ => ⟨symbol, member⟩, fun _ => rfl⟩, formed, ?_⟩
    rw [converted]
    refine Item.sortBy_stable fun entry inEntries => ?_
    obtain ⟨item, inGiven, rfl⟩ := List.mem_map.mp inEntries
    obtain ⟨tree, isTree⟩ := formed item inGiven
    rw [isTree]
    rfl
  · rename_i flat
    have noTree : ¬ ∃ symbol, .documentSymbol symbol ∈ given := by
      rintro ⟨symbol, member⟩
      exact flat (List.any_eq_true.mpr ⟨_, member, rfl⟩)
    have formed : ∀ item ∈ given, item.HasForm .flat := by
      intro item member
      rcases (typed item member).symbol with ⟨symbol, rfl⟩ | isFlat
      · exact absurd ⟨symbol, member⟩ noTree
      · exact isFlat
    refine ⟨.flat, by simp [noTree], formed, ?_⟩
    have unchanged : given.map (Item.inForm .flat) = given := List.map_id'' (fun _ => rfl) given
    rw [unchanged]
    refine Item.sortBy_stable fun item member => ?_
    obtain ⟨symbol, rfl⟩ := formed item member
    rfl

/-- The symbols of several languages, each `null` or a list of symbols in any mixture of the two forms.
They come back in one form, one entry for each, ordered by where they begin; those that begin at the same
place come in the order of the languages and then in the order in which the language gave them. -/
theorem mergeSymbols_sorts_stably {answers : List Answer}
    (typed : ∀ answer ∈ answers, answer.Typed .documentSymbol) :
    ∃ form merged, mergeSymbols answers = .ok merged ∧
      (form = .tree ↔ ∃ symbol, .documentSymbol symbol ∈ answers.flatMap Answer.items) ∧
      (∀ entry ∈ merged, entry.HasForm form) ∧
      merged.Perm ((answers.flatMap Answer.items).map (Item.inForm form)) ∧
      (merged.Pairwise fun entry other => entry.start.line < other.start.line ∨
        (entry.start.line = other.start.line ∧ entry.start.character ≤ other.start.character)) ∧
      ∀ place, merged.filter (fun entry => entry.start = place) =
        ((answers.flatMap Answer.items).filter fun item => item.start = place).map
          (Item.inForm form) := by
  have isGiven := allElements_eq_items typed
  have givenTyped := typed_of_mem_items typed
  generalize answers.flatMap Answer.items = given at isGiven givenTyped ⊢
  obtain ⟨form, isForm, formed, ordered⟩ := orderSymbols_eq givenTyped
  obtain ⟨merged, isMerged, perm, sorted, stable⟩ := ordered
  refine ⟨form, merged, ?_, isForm, ?_, perm, ?_, ?_⟩
  · simp only [mergeSymbols, isGiven, isMerged]
  · intro entry member
    obtain ⟨item, inGiven, rfl⟩ := List.mem_map.mp (perm.mem_iff.mp member)
    exact formed item inGiven
  · exact sorted.imp Position.before_iff.mp
  · intro place
    rw [stable place, List.filter_map]
    congr 1
    refine List.filter_congr fun item _ => ?_
    simp [Item.start_inForm]

/-! ### A mixture

One language gives a flat symbol and a tree, one gives nothing, and one gives a flat symbol that begins
where the tree does. -/

def flatSymbol (name : String) (line : Int) : SymbolInformation :=
  { name := name, kind := .int 12, containerName := some "module",
    location := { uri := "h", range := ⟨⟨line, 0⟩, ⟨line, 4⟩⟩ } }

def treeSymbol (name : String) (line : Int) : DocumentSymbol :=
  { name := name, kind := .int 5, range := ⟨⟨line, 0⟩, ⟨line + 1, 0⟩⟩,
    selectionRange := ⟨⟨line, 2⟩, ⟨line, 3⟩⟩ }

def mixedSymbols : List Answer :=
  [.many [.symbolInformation (flatSymbol "late" 7), .documentSymbol (treeSymbol "tree" 2)], .null,
   .many [.symbolInformation (flatSymbol "level" 2)]]

theorem mergeSymbols_sorts_stably_of_mixture :
    (∀ answer ∈ mixedSymbols, answer.Typed .documentSymbol) ∧
    ∃ merged, mergeSymbols mixedSymbols = .ok merged ∧ (∀ entry ∈ merged, entry.HasForm .tree) ∧
      merged.filter (fun entry => entry.start = ⟨2, 0⟩) =
        [.documentSymbol (treeSymbol "tree" 2),
         .documentSymbol (flatSymbol "level" 2).toDocumentSymbol] := by
  have typed : ∀ answer ∈ mixedSymbols, answer.Typed .documentSymbol := by
    simp [mixedSymbols, Answer.Typed, Item.Typed]
  obtain ⟨form, merged, isMerged, isForm, formed, -, -, stable⟩ := mergeSymbols_sorts_stably typed
  obtain rfl : form = .tree := isForm.mpr ⟨treeSymbol "tree" 2, by simp [mixedSymbols, Answer.items]⟩
  exact ⟨typed, merged, isMerged, formed, stable ⟨2, 0⟩⟩

end LanguageBridge
