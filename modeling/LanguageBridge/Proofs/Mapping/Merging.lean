import LanguageBridge.Mapping.Answers

namespace LanguageBridge

/-! Results of the type that a request about a whole document has. They can always be brought back, and
those of several languages can always be merged. -/

/-- Symbols of a document in either form, or hints. -/
def Item.Typed (method : Method) : Item → Prop
  | documentSymbol _ | symbolInformation _ => method = .documentSymbol
  | inlayHint _ => method = .inlayHint
  | _ => False

/-- Nothing, or a list of such items. -/
def Answer.Typed (method : Method) : Answer → Prop
  | null => True
  | one _ => False
  | many items => ∀ item ∈ items, item.Typed method

namespace Item

variable {item : Item}

theorem Typed.isRegular {method : Method} (typed : item.Typed method) : item.isRegular = true := by
  cases item with
  | other value => exact typed.elim
  | _ => rfl

theorem Typed.isHint (typed : item.Typed .inlayHint) : item.isHint = true := by
  cases item <;> simp_all [Item.Typed, Item.isHint]

theorem Typed.symbol (typed : item.Typed .documentSymbol) :
    (∃ symbol, item = .documentSymbol symbol) ∨ ∃ symbol, item = .symbolInformation symbol := by
  cases item <;> simp_all [Item.Typed]

theorem Typed.hint (typed : item.Typed .inlayHint) : ∃ hint, item = .inlayHint hint := by
  cases item <;> simp_all [Item.Typed]

end Item

theorem Answer.Typed.isRegular {method : Method} {answer : Answer} (asks : method ∈ Method.fanOut)
    (typed : answer.Typed method) : answer.isRegular method = true := by
  cases answer with
  | null => cases method <;> rfl
  | one item => exact typed.elim
  | many items =>
    simp only [Method.fanOut, List.mem_cons, List.not_mem_nil, or_false] at asks
    rcases asks with isSymbols | isHints
    · subst isSymbols
      exact List.all_eq_true.mpr fun item member => (typed item member).isRegular
    · subst isHints
      exact List.all_eq_true.mpr fun item member => (typed item member).isHint

namespace Store

variable {store : Store} {context : Context} {answer : Answer}

theorem bringBack_typed (asks : context.method ∈ Method.fanOut) (regular : context.isRegular = true)
    (typed : answer.Typed context.method) :
    (store.bringBack context answer).1 = .ok (store.mapBack context answer).1 := by
  simp only [bringBack, typed.isRegular asks, regular, Bool.and_self, if_true]

theorem mapSymbolItem_typed {item mapped : Item} (typed : item.Typed .documentSymbol)
    (isMapped : (store.mapSymbolItem context item).toOption = some mapped) :
    mapped.Typed .documentSymbol := by
  rcases typed.symbol with ⟨symbol, isItem⟩ | ⟨symbol, isItem⟩
  · subst isItem
    simp only [mapSymbolItem] at isMapped
    cases done : store.mapSymbol context symbol with
    | error fault =>
      rw [done] at isMapped
      cases isMapped
    | ok symbol =>
      rw [done] at isMapped
      cases isMapped
      rfl
  · subst isItem
    simp only [mapSymbolItem] at isMapped
    cases done : store.mapLocation symbol.location with
    | error fault =>
      rw [done] at isMapped
      cases isMapped
    | ok location =>
      rw [done] at isMapped
      cases isMapped
      rfl

theorem mapHintItem_typed {item mapped : Item} (typed : item.Typed .inlayHint)
    (isMapped : store.mapHintItem context item = some mapped) : mapped.Typed .inlayHint := by
  obtain ⟨hint, isItem⟩ := typed.hint
  subst isItem
  simp only [mapHintItem] at isMapped
  split at isMapped
  · contradiction
  · split at isMapped
    · cases isMapped
      rfl
    · contradiction

theorem mapBack_typed (asks : context.method ∈ Method.fanOut) (typed : answer.Typed context.method) :
    (store.mapBack context answer).1.Typed context.method := by
  cases answer with
  | null => trivial
  | one item => exact typed.elim
  | many items =>
    simp only [Method.fanOut, List.mem_cons, List.not_mem_nil, or_false] at asks
    rcases asks with isSymbols | isHints
    · rw [isSymbols] at typed ⊢
      simp only [mapBack, mapAnswer, isSymbols, mapSymbols, Answer.restore, Answer.items]
      intro mapped member
      obtain ⟨item, inItems, isMapped⟩ := List.mem_filterMap.mp member
      exact mapSymbolItem_typed (typed item inItems) isMapped
    · rw [isHints] at typed ⊢
      simp only [mapBack, mapAnswer, isHints, mapHints, Answer.items]
      intro mapped member
      obtain ⟨item, inItems, isMapped⟩ := List.mem_filterMap.mp member
      exact mapHintItem_typed (typed item inItems) isMapped

end Store

/-! ### Merging -/

theorem allElements_typed {method : Method} {answers : List Answer}
    (typed : ∀ answer ∈ answers, answer.Typed method) :
    ∃ items, allElements answers = .ok items ∧ ∀ item ∈ items, item.Typed method := by
  induction answers with
  | nil => exact ⟨[], rfl, by simp⟩
  | cons answer rest ih =>
    obtain ⟨others, isOthers, othersTyped⟩ :=
      ih fun other member => typed other (List.mem_cons_of_mem answer member)
    have here := typed answer List.mem_cons_self
    cases answer with
    | null => exact ⟨others, by simp [allElements, isOthers, Answer.filledElements, Answer.elements],
        othersTyped⟩
    | one item => exact here.elim
    | many items =>
      refine ⟨items ++ others,
        by simp [allElements, isOthers, Answer.filledElements, Answer.elements], ?_⟩
      intro item member
      rcases List.mem_append.mp member with inItems | inOthers
      · exact here item inItems
      · exact othersTyped item inOthers

theorem Item.sortBy_ok {start? : Item → Option Position} {part : String} {items : List Item}
    (placed : ∀ item ∈ items, (start? item).isSome = true) :
    ∃ sorted, Item.sortBy start? part items = .ok sorted := by
  have none : items.find? (fun item => (start? item).isNone) = none := by
    rw [List.find?_eq_none]
    intro item member
    simpa [Option.isSome_iff_ne_none] using placed item member
  simp only [Item.sortBy, none]
  exact ⟨_, rfl⟩

theorem mergeSymbols_typed {answers : List Answer}
    (typed : ∀ answer ∈ answers, answer.Typed .documentSymbol) :
    ∃ items, mergeSymbols answers = .ok items := by
  obtain ⟨items, isItems, itemsTyped⟩ := allElements_typed typed
  simp only [mergeSymbols, isItems, orderSymbols]
  split
  · refine Item.sortBy_ok fun item member => ?_
    obtain ⟨given, inItems, isItem⟩ := List.mem_map.mp member
    subst isItem
    rcases (itemsTyped given inItems).symbol with ⟨symbol, isGiven⟩ | ⟨symbol, isGiven⟩ <;>
      subst isGiven <;> rfl
  · rename_i flat
    refine Item.sortBy_ok fun item member => ?_
    rcases (itemsTyped item member).symbol with ⟨symbol, isItem⟩ | ⟨symbol, isItem⟩
    · exact absurd (List.any_eq_true.mpr ⟨item, member, by rw [isItem]; rfl⟩) flat
    · subst isItem
      rfl

theorem mergeHints_typed {answers : List Answer}
    (typed : ∀ answer ∈ answers, answer.Typed .inlayHint) :
    ∃ items, mergeHints answers = .ok items := by
  obtain ⟨items, isItems, itemsTyped⟩ := allElements_typed typed
  simp only [mergeHints, isItems]
  refine Item.sortBy_ok fun item member => ?_
  obtain ⟨hint, isItem⟩ := (itemsTyped item member).hint
  subst isItem
  rfl

end LanguageBridge
