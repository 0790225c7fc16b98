import LanguageBridge.Proofs.Mapping.Returning

namespace LanguageBridge

/-! That a place in an answer has no counterpart in the host is found out only while the answer is
translated. It stays inside translation, and a request is about its host again when its answer is
there. -/

/-! ### Parameters afterwards -/

/-- The identifier of the document that parameters are about. -/
def Params.identifier? : Params → Option Value
  | document about => some about.document.toValue
  | other (.record _ fields) => Fields.get? fields "textDocument"
  | _ => none

namespace Params

variable {params restored : Params} (uri : String)

theorem identifier?_setDataUri : (params.setDataUri uri).identifier? = params.identifier? := by
  unfold setDataUri
  split
  · rfl
  · rfl
  · simp only [identifier?, Fields.get?_update]
    rfl
  · rfl

theorem isAddressable_setDataUri :
    (params.setDataUri uri).isAddressable = params.isAddressable := by
  unfold setDataUri
  split
  · rfl
  · rfl
  · simp only [isAddressable, Fields.get?_update]
    rfl
  · rfl

/-- Parameters that say properly what they are about can be pointed at any document. -/
theorem restoreUri_of_addressable (addressable : params.isAddressable = true) :
    params.restoreUri uri = .ok (params.setUri uri) := by
  unfold restoreUri
  split
  · rename_i fields
    rw [Option.isNone_iff_eq_none.mp addressable]
    rfl
  · rfl

theorem restoreUri_identifier? {uri : String} (done : params.restoreUri uri = .ok restored)
    (has : params.identifier?.isSome = true) :
    ∃ identifier, restored.identifier? = some identifier ∧
      identifier.part "uri" = .ok (.str uri) := by
  unfold restoreUri at done
  split at done
  · rename_i type fields
    obtain ⟨about, held⟩ := Option.isSome_iff_exists.mp has
    rw [show Fields.get? fields "textDocument" = some about from held] at done
    obtain ⟨_, _, done⟩ := Except.bind_eq_ok done
    obtain ⟨named, isNamed, done⟩ := Except.bind_eq_ok done
    cases done
    obtain ⟨kind, parts, rfl, rfl⟩ := Value.givePart_eq_ok isNamed
    refine ⟨_, by rw [identifier?, Fields.get?_put, if_pos rfl], Value.part_given ?_⟩
    rw [Fields.get?_put, if_pos rfl]
  · rename_i notRecord
    cases done
    cases params with
    | document about => exact ⟨_, rfl, Value.part_given (by simp [Fields.get?_cons])⟩
    | item sent => contradiction
    | other value =>
      cases value with
      | record type fields => exact absurd rfl (notRecord type fields)
      | _ => contradiction

end Params

namespace Store

/-- The context of a request when its answer has been looked into: it has the document it had. -/
structure Settled (context settled : Context) : Prop where
  host : settled.host = context.host
  identifier : settled.params.identifier? = context.params.identifier?
  addressable : settled.params.isAddressable = context.params.isAddressable

theorem Settled.refl (context : Context) : Settled context context :=
  ⟨rfl, rfl, rfl⟩

theorem Settled.restoreData (context : Context) : Settled context context.restoreData :=
  ⟨rfl, Params.identifier?_setDataUri _, Params.isAddressable_setDataUri _⟩

theorem Settled.restore {context settled : Context} (same : Settled context settled)
    (regular : context.isRegular = true) : settled.restore = .ok settled.restored := by
  have addressable := (Bool.and_eq_true_iff.mp regular).1
  rw [← same.addressable] at addressable
  rw [Context.restore, Params.restoreUri_of_addressable _ addressable]
  rfl

theorem mapBack_restored {store : Store} {context : Context} (regular : context.isRegular = true)
    (answer : Answer) :
    ∃ settled, Settled context settled ∧
      settled.restore = .ok (store.mapBack context answer).2 := by
  unfold mapBack
  split
  · exact ⟨context, .refl context, (Settled.refl context).restore regular⟩
  · dsimp only
    split
    · exact ⟨_, .restoreData context, (Settled.restoreData context).restore regular⟩
    · exact ⟨context, .refl context, (Settled.refl context).restore regular⟩

theorem bringValueBack_restored {store : Store} {context : Context} {answer : Answer}
    (returned : Returns (store.bringValueBack context answer).1) :
    ∃ settled, Settled context settled ∧
      settled.restore = .ok (store.bringValueBack context answer).2 := by
  obtain ⟨value, isValue⟩ := returned
  unfold bringValueBack at isValue ⊢
  dsimp only at isValue ⊢
  split at isValue
  · cases isValue
  · split at isValue
    · cases isValue
    · rename_i restored isRestored
      -- only resolving a completion touches the parameters before they are restored
      refine ⟨_, ?_, isRestored⟩
      split
      · exact .refl context
      · exact .restoreData context
      · exact .refl context

/-- Whatever comes back, the parameters of the request are about the host again. -/
theorem bringBack_restored {store : Store} {context : Context} {answer : Answer}
    (returned : Returns (store.bringBack context answer).1)
    (has : context.params.identifier?.isSome = true) :
    ∃ identifier, (store.bringBack context answer).2.params.identifier? = some identifier ∧
      identifier.part "uri" = .ok (.str context.host) := by
  have restored : ∃ settled, Settled context settled ∧
      settled.restore = .ok (store.bringBack context answer).2 := by
    unfold bringBack at returned ⊢
    split at returned
    · rename_i regular
      rw [if_pos regular]
      exact mapBack_restored (Bool.and_eq_true_iff.mp regular).2 answer
    · rename_i irregular
      rw [if_neg irregular]
      exact bringValueBack_restored returned
  obtain ⟨settled, same, done⟩ := restored
  obtain ⟨params, isParams, isRestored⟩ := Except.map_eq_ok done
  rw [← isRestored, ← same.host]
  exact Params.restoreUri_identifier? isParams (same.identifier ▸ has)

/-! ### Well-typed data -/

theorem bringBack_returns {store : Store} {context : Context} {answer : Answer}
    (proper : context.isRegular = true) (regular : answer.isRegular context.method = true) :
    Returns (store.bringBack context answer).1 := by
  rw [bringBack, if_pos (Bool.and_eq_true_iff.mpr ⟨regular, proper⟩)]
  exact ⟨_, rfl⟩

theorem bringEditBack_returns {store : Store} {value : Value} {edit : WorkspaceEdit}
    (read : Item.ofValue value = .workspaceEdit edit) : Returns (store.bringEditBack value) := by
  rw [bringEditBack, read]
  exact ⟨_, rfl⟩

theorem mapWorkspaceEditValue_returns {store : Store} {value : Value} {edit : WorkspaceEdit}
    (read : Item.ofValue value = .workspaceEdit edit) :
    Returns (store.mapWorkspaceEditValue value) := by
  cases Item.reads_of_ofValue read (by simp) with
  | workspaceEdit isEdit =>
    exact (store.mapWorkspaceEditValue_mild isEdit).returns (store.mapWorkspaceEditValue_sealed _)

theorem bringSymbolsBack_returns {store : Store} {values : List Value}
    (each : ∀ value ∈ values, (Item.ofValue value).isWorkspaceSymbol = true) :
    Returns (store.bringSymbolsBack (.ofValue (.list values))) := by
  have regular : ((values.map Item.ofValue).all Item.isRegularSymbol) = true := by
    rw [List.all_map, List.all_eq_true]
    intro value member
    exact Item.isRegularSymbol_of_isWorkspaceSymbol (each value member)
  refine ⟨store.mapWorkspaceSymbols (values.map Item.ofValue), ?_⟩
  change (if (values.map Item.ofValue).all Item.isRegularSymbol = true then _ else _) = _
  rw [if_pos regular]

theorem keepWorkspaceSymbols_returns {store : Store} {values : List Value}
    (each : ∀ value ∈ values, (Item.ofValue value).isWorkspaceSymbol = true) :
    Returns (keepMapped store.mapWorkspaceSymbolValue (some "name") values) := by
  refine (keepMapped_mild ?_ ?_).returns (keepMapped_sealed _ _ _)
  · intro value member
    exact (store.mapTypedSymbol_mild (each value member)).1
  · rintro name ⟨⟩ value member
    exact (store.mapTypedSymbol_mild (each value member)).2

theorem bringPublicationBack_returns {store : Store} (uri : String) {items : List Value}
    (typed : (Diagnostic.list? items).isSome = true) :
    Returns (store.bringPublicationBack uri (.list items)) := by
  obtain ⟨diagnostics, areDiagnostics⟩ := Option.isSome_iff_exists.mp typed
  unfold bringPublicationBack
  split
  · exact ⟨_, rfl⟩
  · dsimp only [Value.elements, Value.elements?, bind, Except.bind]
    rw [areDiagnostics]
    exact ⟨_, rfl⟩

theorem keepDiagnostics_returns {store : Store} (host language : String) {items : List Value}
    (typed : (Diagnostic.list? items).isSome = true) :
    Returns (keepMapped (store.mapDiagnosticValue host language) (some "message") items) := by
  obtain ⟨diagnostics, areDiagnostics⟩ := Option.isSome_iff_exists.mp typed
  have each := exists_of_mapM areDiagnostics
  refine (keepMapped_mild ?_ ?_).returns (keepMapped_sealed _ _ _)
  · intro value member
    obtain ⟨diagnostic, read⟩ := each value member
    exact store.mapDiagnosticValue_mild host language read
  · rintro name ⟨⟩ value member
    obtain ⟨diagnostic, read⟩ := each value member
    obtain ⟨fields, rfl, _, _⟩ := Diagnostic.fields_of_ofValue? read
    exact ⟨_, Value.part_owned "Diagnostic" "message" (by decide) fields⟩

/-- Nothing gets out of translation that says of a place that it has no counterpart, whatever the
store holds and whatever the data are. Data of the right type are always translated, both by the rule
for their type and by the rule for data of any shape. When an answer comes back, the parameters of
its request are about the host again. -/
theorem unmappable_places_never_escape (store : Store) :
    (∀ context answer, Sealed (store.bringBack context answer).1 ∧
      (context.isRegular = true → answer.isRegular context.method = true →
        Returns (store.bringBack context answer).1) ∧
      (Returns (store.bringBack context answer).1 → context.params.identifier?.isSome = true →
        ∃ identifier, (store.bringBack context answer).2.params.identifier? = some identifier ∧
          identifier.part "uri" = .ok (.str context.host))) ∧
    (∀ context value, context.isRegular = true → value.isNull = false →
      (Answer.ofValue value).isRegular context.method = true →
        Returns (store.mapAnswerValue context value)) ∧
    (∀ edit, Sealed (store.bringEditBack edit) ∧
      ∀ regular, Item.ofValue edit = .workspaceEdit regular →
        Returns (store.bringEditBack edit) ∧ Returns (store.mapWorkspaceEditValue edit)) ∧
    (∀ answer, Sealed (store.bringSymbolsBack answer)) ∧
    Returns (store.bringSymbolsBack .null) ∧
    (∀ values, (∀ value ∈ values, (Item.ofValue value).isWorkspaceSymbol = true) →
      Returns (store.bringSymbolsBack (.ofValue (.list values))) ∧
        Returns (keepMapped store.mapWorkspaceSymbolValue (some "name") values)) ∧
    (∀ uri published, Sealed (store.bringPublicationBack uri published)) ∧
    (∀ uri items, (Diagnostic.list? items).isSome = true →
      Returns (store.bringPublicationBack uri (.list items)) ∧
        ∀ host language, Returns
          (keepMapped (store.mapDiagnosticValue host language) (some "message") items)) := by
  refine ⟨fun context answer => ⟨store.bringBack_sealed context answer, ?_, bringBack_restored⟩, ?_,
    fun edit => ⟨store.bringEditBack_sealed edit, ?_⟩, store.bringSymbolsBack_sealed, ⟨[], rfl⟩, ?_,
    store.bringPublicationBack_sealed, ?_⟩
  · intro proper regular
    exact bringBack_returns proper regular
  · intro context value proper given regular
    exact (store.mapAnswerValue_mild context given proper regular).returns
      (store.mapAnswerValue_sealed context value)
  · intro regular read
    exact ⟨bringEditBack_returns read, mapWorkspaceEditValue_returns read⟩
  · intro values each
    exact ⟨bringSymbolsBack_returns each, keepWorkspaceSymbols_returns each⟩
  · intro uri items typed
    exact ⟨bringPublicationBack_returns uri typed, fun host language =>
      keepDiagnostics_returns host language typed⟩

/-- A child of a symbol is about a line that the host no longer has. The symbol comes back without
it, and the parameters of the request are about the host again. -/
theorem unmappable_places_never_escape_of_stale_child :
    ∃ (store : Store) (context : Context) (symbol : DocumentSymbol) (range : Range),
      context.isRegular = true ∧
      (Answer.many [.documentSymbol symbol]).isRegular context.method = true ∧
      symbol.children.map List.length = some 1 ∧
      (store.bringBack context (.many [.documentSymbol symbol])).1 = .ok (.many [.documentSymbol
        { symbol with range := range, selectionRange := range, children := some [] }]) ∧
      context.params.identifier?.isSome = true ∧
      (∃ identifier,
        (store.bringBack context (.many [.documentSymbol symbol])).2.params.identifier? =
          some identifier ∧ identifier.part "uri" = .ok (.str context.host)) ∧
      (Answer.ofValue (.list [symbol.toValue])).isRegular context.method = true ∧
      Returns (store.mapAnswerValue context (.list [symbol.toValue])) := by
  let store : Store := (fresh .compact .standard none).openHost "h" "```python\nx = 1\n```"
  let context : Context :=
    { id := 1, method := .documentSymbol, host := "h", aliasUri := "otter://h/python"
      language := "python"
      params := .document
        { type := "DocumentSymbolParams", document := { uri := "otter://h/python" } } }
  let inside : Range := ⟨⟨0, 0⟩, ⟨0, 1⟩⟩
  let below : Range := ⟨⟨7, 0⟩, ⟨7, 1⟩⟩
  let child : DocumentSymbol := ⟨"y", .int 13, below, below, none, none, []⟩
  let symbol : DocumentSymbol := ⟨"x", .int 13, inside, inside, none, some [child], []⟩
  let range : Range := ⟨⟨1, 0⟩, ⟨1, 1⟩⟩
  have run : (context.isRegular, (Answer.many [.documentSymbol symbol]).isRegular context.method,
      (store.bringBack context (.many [.documentSymbol symbol])).1,
      (Answer.ofValue (.list [symbol.toValue])).isRegular context.method) =
        (true, true, .ok (.many [.documentSymbol
          { symbol with range := range, selectionRange := range, children := some [] }]),
          true) := by cbv
  obtain ⟨proper, regular, ok, typed⟩ := by simpa only [Prod.mk.injEq] using run
  obtain ⟨answers, values, -⟩ := unmappable_places_never_escape store
  obtain ⟨-, returns, restored⟩ := answers context (.many [.documentSymbol symbol])
  exact ⟨store, context, symbol, range, proper, regular, rfl, ok, rfl,
    restored (returns proper regular) rfl, typed, values context _ proper rfl typed⟩

end Store

end LanguageBridge
