import LanguageBridge.Proofs.Mapping.Answers

namespace LanguageBridge

/-! The items of an answer are brought back one by one. An item is dropped if one of the ranges that are
mapped in it has no place in the host, and its neighbours do not notice. -/

/-! ### Ranges that are mapped -/

/-- A range in the synthetic document of a host and a language. -/
structure Stretch where
  document : Alias
  range : Range
deriving DecidableEq, Repr

/-- A place in a real document is not mapped. -/
def Location.stretches (place : Location) : List Stretch :=
  (Alias.parse? place.uri).toList.map fun document => ⟨document, place.range⟩

def TextEdit.stretches (document : Alias) (edits : List TextEdit) : List Stretch :=
  edits.map fun edit => ⟨document, edit.range⟩

def LocationLink.stretches (asked : Alias) (link : LocationLink) : List Stretch :=
  Location.stretches ⟨link.targetUri, link.targetRange⟩ ++
    (Location.stretches ⟨link.targetUri, link.targetSelectionRange⟩ ++
      link.originSelectionRange.toList.map fun range => ⟨asked, range⟩)

def CompletionEdit.stretches (asked : Alias) : CompletionEdit → List Stretch
  | plain edit => [⟨asked, edit.range⟩]
  | insertReplace insert replace _ => [⟨asked, insert⟩, ⟨asked, replace⟩]
  | other _ => []

def CompletionItem.stretches (asked : Alias) (item : CompletionItem) : List Stretch :=
  item.edit.toList.flatMap (CompletionEdit.stretches asked) ++
    TextEdit.stretches asked (item.additionalEdits.getD [])

def Diagnostic.stretches (asked : Alias) (diagnostic : Diagnostic) : List Stretch :=
  ⟨asked, diagnostic.range⟩ ::
    (diagnostic.related.getD []).flatMap fun related => related.location.stretches

namespace Item

/-- The ranges on which it depends whether an item is kept. Those of a symbol in a tree are its own two;
the symbols below it have theirs. -/
def stretches (asked : Alias) : Item → List Stretch
  | location place => place.stretches
  | locationLink link => link.stretches asked
  | documentSymbol symbol => [⟨asked, symbol.range⟩, ⟨asked, symbol.selectionRange⟩]
  | symbolInformation symbol => symbol.location.stretches
  | workspaceSymbol symbol => symbol.place.places.flatMap Location.stretches
  | completionItem item => item.stretches asked
  | _ => []

end Item

/-- The document that a request is about. -/
def Context.asked (context : Context) : Alias :=
  ⟨context.host, context.language⟩

/-! ### Success and failure -/

namespace Except

variable {α β : Type}

theorem isOk_map {first : Except Fault α} {change : α → β} :
    (first.map change).isOk = first.isOk := by
  cases first <;> rfl

theorem isOk_bind {first : Except Fault α} {next : α → Except Fault β} {later : Bool}
    (each : ∀ value, (next value).isOk = later) :
    (first >>= next).isOk = (first.isOk && later) := by
  cases first with
  | error fault => rfl
  | ok value => exact each value

theorem isOk_bind_ok {first : Except Fault α} {make : α → β} :
    (first >>= fun value => .ok (make value)).isOk = first.isOk := by
  cases first <;> rfl

theorem isSome_toOption {first : Except Fault α} : first.toOption.isSome = first.isOk := by
  cases first <;> rfl

end Except

namespace Store

variable {store : Store} {context : Context}

/-- Whether a range has a place in the host. -/
def maps (store : Store) (stretch : Stretch) : Bool :=
  (store.mapRange stretch.document.host stretch.document.language stretch.range).isOk

theorem isOk_mapRange (host language : String) (range : Range) :
    (store.mapRange host language range).isOk = store.maps ⟨⟨host, language⟩, range⟩ :=
  rfl

theorem isOk_mapLocation (place : Location) :
    (store.mapLocation place).isOk = place.stretches.all store.maps := by
  unfold mapLocation Location.stretches
  cases Alias.parse? place.uri with
  | none => rfl
  | some document => simp [Except.isOk_map, isOk_mapRange]

theorem isOk_mapOptional {α : Type} {map : α → Except Fault α} {part : Option α} :
    (mapOptional map part).isOk = part.toList.all fun given => (map given).isOk := by
  cases part with
  | none => rfl
  | some given => simp [mapOptional, Except.isOk_map]

theorem isOk_mapEdits (document : Alias) (edits : List TextEdit) :
    (store.mapEdits document.host document.language edits).isOk =
      (TextEdit.stretches document edits).all store.maps := by
  induction edits with
  | nil => rfl
  | cons edit rest ih =>
    have first : (store.mapEdit document.host document.language edit).isOk =
        store.maps ⟨document, edit.range⟩ := Except.isOk_map
    simp only [TextEdit.stretches, List.map_cons, List.all_cons] at ih ⊢
    rw [← first, ← ih, mapEdits]
    cases store.mapEdit document.host document.language edit with
    | error fault => rfl
    | ok mapped => exact Except.isOk_map

theorem isOk_mapOptionalEdits (asked : Alias) (edits : Option (List TextEdit)) :
    (mapOptional (store.mapEdits asked.host asked.language) edits).isOk =
      (TextEdit.stretches asked (edits.getD [])).all store.maps := by
  rw [isOk_mapOptional]
  cases edits with
  | none => rfl
  | some edits => simp [isOk_mapEdits]

theorem isOk_mapLocationLink (link : LocationLink) :
    (store.mapLocationLink context link).isOk = (link.stretches context.asked).all store.maps := by
  unfold mapLocationLink LocationLink.stretches
  rw [List.all_append, List.all_append, ← isOk_mapLocation, ← isOk_mapLocation]
  refine Except.isOk_bind fun target => Except.isOk_bind fun selection => ?_
  cases link.originSelectionRange with
  | none => rfl
  | some range =>
    refine Except.isOk_bind_ok.trans ?_
    simp [Except.isOk_map, isOk_mapRange, Context.asked]

theorem isOk_mapSymbol (symbol : DocumentSymbol) :
    (store.mapSymbol context symbol).isOk =
      (store.maps ⟨context.asked, symbol.range⟩ &&
        store.maps ⟨context.asked, symbol.selectionRange⟩) := by
  obtain ⟨name, kind, range, selectionRange, detail, children, rest⟩ := symbol
  simp only [mapSymbol, maps, Context.asked]
  cases store.mapRange context.host context.language range with
  | error fault => rfl
  | ok own => cases store.mapRange context.host context.language selectionRange <;> rfl

theorem isOk_mapCompletionEdit (edit : CompletionEdit) :
    (store.mapCompletionEdit context edit).isOk =
      (edit.stretches context.asked).all store.maps := by
  cases edit with
  | plain edit => simp [mapCompletionEdit, mapEdit, CompletionEdit.stretches, Except.isOk_map,
      isOk_mapRange, Context.asked]
  | insertReplace insert replace rest =>
    simp only [CompletionEdit.stretches, List.all_cons, List.all_nil, Bool.and_true]
    exact Except.isOk_bind fun _ => Except.isOk_bind_ok
  | other value => rfl

theorem isOk_mapCompletionItem (item : CompletionItem) :
    (store.mapCompletionItem context item).isOk =
      (item.stretches context.asked).all store.maps := by
  unfold mapCompletionItem CompletionItem.stretches
  rw [List.all_append, List.all_flatMap, ← isOk_mapOptionalEdits]
  refine (Except.isOk_bind fun _ => Except.isOk_bind_ok).trans ?_
  simp only [isOk_mapOptional, isOk_mapCompletionEdit]
  rfl

theorem isOk_mapRelated (related : List RelatedInformation) :
    (store.mapRelated related).isOk =
      (related.flatMap fun one => one.location.stretches).all store.maps := by
  induction related with
  | nil => rfl
  | cons first rest ih =>
    rw [List.flatMap_cons, List.all_append, ← ih, ← isOk_mapLocation, mapRelated]
    cases store.mapLocation first.location with
    | error fault => rfl
    | ok mapped => exact Except.isOk_map

theorem isOk_mapDiagnostic (document : Alias) (diagnostic : Diagnostic) :
    (store.mapDiagnostic document.host document.language diagnostic).isOk =
      (diagnostic.stretches document).all store.maps := by
  unfold mapDiagnostic Diagnostic.stretches
  rw [List.all_cons]
  refine Except.isOk_bind fun _ => Except.isOk_bind_ok.trans ?_
  rw [isOk_mapOptional]
  cases diagnostic.related with
  | none => rfl
  | some related => simp [isOk_mapRelated]

theorem isOk_mapLocationItem {method : Method} (leading : method ∈ Method.leading) {item : Item}
    (fits : item.suits method = true) :
    (store.mapLocationItem context item).isOk = (item.stretches context.asked).all store.maps := by
  cases item with
  | location place => exact Except.isOk_map.trans (isOk_mapLocation place)
  | locationLink link => exact Except.isOk_map.trans (isOk_mapLocationLink link)
  | other value => rfl
  | _ =>
    simp only [Method.leading, List.mem_cons, List.not_mem_nil, or_false] at leading
    rcases leading with rfl | rfl | rfl | rfl | rfl <;> simp [Item.suits] at fits

theorem isOk_mapSymbolItem {item : Item} (fits : item.suits .documentSymbol = true) :
    (store.mapSymbolItem context item).isOk = (item.stretches context.asked).all store.maps := by
  cases item with
  | documentSymbol symbol =>
    rw [mapSymbolItem, Except.isOk_map, isOk_mapSymbol]
    simp [Item.stretches]
  | symbolInformation symbol => exact Except.isOk_map.trans (isOk_mapLocation symbol.location)
  | other value => rfl
  | _ => simp [Item.suits, Method.leading] at fits

theorem isSome_mapCompletionListItem {item : Item} (fits : item.suits .completion = true) :
    (store.mapCompletionListItem context item).isSome =
      (item.stretches context.asked).all store.maps := by
  cases item with
  | completionItem completion =>
    rw [mapCompletionListItem, Option.isSome_map, Except.isSome_toOption, isOk_mapCompletionItem]
    rfl
  | completionList list => rfl
  | other value => rfl
  | _ => simp [Item.suits, Method.leading] at fits

theorem isOk_mapWorkspaceSymbol {item : Item} (kind : item.isWorkspaceSymbol = true)
    (asked : Alias) :
    (store.mapWorkspaceSymbol item).isOk = (item.stretches asked).all store.maps := by
  cases item with
  | symbolInformation symbol => exact Except.isOk_map.trans (isOk_mapLocation symbol.location)
  | workspaceSymbol symbol =>
    cases isPlace : symbol.place with
    | location place =>
      simp only [mapWorkspaceSymbol, isPlace, Item.stretches, SymbolPlace.places,
        List.flatMap_singleton]
      exact Except.isOk_map.trans (isOk_mapLocation place)
    | document named =>
      simp only [mapWorkspaceSymbol, isPlace, Item.stretches, SymbolPlace.places]
      rfl
  | _ => contradiction

end Store

/-! ### One item at a time -/

theorem filterMap_singleton {α β : Type} {keep : α → Option β} {item : α} :
    [item].filterMap keep = (keep item).toList := by
  cases kept : keep item <;> simp [kept]

theorem Answer.items_restore (answer : Answer) (keep : Item → Option Item) :
    (answer.restore (answer.items.filterMap keep)).items = answer.items.filterMap keep := by
  cases answer with
  | null => rfl
  | one item =>
    rw [items, filterMap_singleton]
    cases keep item <;> rfl
  | many items => rfl

theorem Answer.suits_append {items others : List Item} {method : Method}
    (fits : (Answer.many items).suits method = true)
    (fitsOthers : (Answer.many others).suits method = true) :
    (Answer.many (items ++ others)).suits method = true := by
  unfold suits at fits fitsOthers ⊢
  cases method <;> simp_all [isRegular, Answer.items, List.all_append]

theorem Answer.suits_one {item : Item} {method : Method} (leading : method ∈ Method.leading)
    (fits : (Answer.many [item]).suits method = true) : (Answer.one item).suits method = true := by
  simp only [Method.leading, List.mem_cons, List.not_mem_nil, or_false] at leading
  rcases leading with rfl | rfl | rfl | rfl | rfl <;>
    simpa [suits, isRegular, items] using fits

/-- Requests that are answered with a list of items, each of them by itself. -/
def Method.listing : List Method :=
  leading ++ [documentSymbol, completion, inlayHint]

namespace Store

variable {store : Store} {context : Context}

/-- What the rule of a request makes of one item, if it keeps it. -/
def mapItem? (store : Store) (context : Context) : Item → Option Item :=
  match context.method with
  | .definition | .typeDefinition | .implementation | .declaration | .references =>
    fun item => (store.mapLocationItem context item).toOption
  | .documentSymbol => fun item => (store.mapSymbolItem context item).toOption
  | .rename => fun item => some (store.mapRenameItem item)
  | .completion => store.mapCompletionListItem context
  | .inlayHint => store.mapHintItem context
  | _ => some

theorem mapAnswer_eq_restore (shaped : context.method ∈ Method.leading ++ [.documentSymbol, .rename])
    (answer : Answer) :
    store.mapAnswer context answer =
      answer.restore (answer.items.filterMap (store.mapItem? context)) := by
  unfold mapAnswer mapItem?
  cases method : context.method with
  | definition | typeDefinition | implementation | declaration | references | documentSymbol => rfl
  | rename =>
    simp only [mapRename, ← List.filterMap_eq_map]
    rfl
  | _ => simp [method, Method.leading] at shaped

theorem mapAnswer_many (listing : context.method ∈ Method.listing) (items : List Item) :
    store.mapAnswer context (.many items) = .many (items.filterMap (store.mapItem? context)) := by
  unfold mapAnswer mapItem?
  cases method : context.method with
  | definition | typeDefinition | implementation | declaration | references | documentSymbol
  | completion | inlayHint => rfl
  | _ => simp [method, Method.listing, Method.leading] at listing

/-- An item is kept exactly if all ranges that are mapped in it have a place in the host. -/
theorem isSome_mapItem? (method : context.method ∈ Method.leading ++ [.documentSymbol, .completion])
    {item : Item} (fits : item.suits context.method = true) :
    (store.mapItem? context item).isSome = (item.stretches context.asked).all store.maps := by
  have leading : context.method ∈ Method.leading →
      (store.mapLocationItem context item).toOption.isSome =
        (item.stretches context.asked).all store.maps :=
    fun leading => Except.isSome_toOption.trans (isOk_mapLocationItem leading fits)
  unfold mapItem?
  cases isMethod : context.method with
  | definition | typeDefinition | implementation | declaration | references =>
    exact leading (by simp [isMethod, Method.leading])
  | documentSymbol => exact Except.isSome_toOption.trans (isOk_mapSymbolItem (isMethod ▸ fits))
  | completion => exact isSome_mapCompletionListItem (isMethod ▸ fits)
  | _ => simp [isMethod, Method.leading] at method

/-! ### Answers -/

theorem eq_none_iff_unmapped {α : Type} {kept : Option α} {stretches : List Stretch}
    (same : kept.isSome = stretches.all store.maps) :
    kept = none ↔ ∃ stretch ∈ stretches, store.maps stretch = false := by
  rw [← Option.isNone_iff_eq_none, ← Option.not_isSome, same]
  simp

theorem bringBack_eq_mapBack (proper : context.isRegular = true) {answer : Answer}
    (regular : answer.isRegular context.method = true) :
    store.bringBack context answer =
      (.ok (store.mapBack context answer).1, (store.mapBack context answer).2) := by
  rw [bringBack, if_pos (Bool.and_eq_true_iff.mpr ⟨regular, proper⟩)]

theorem bringBack_eq_restore (store : Store) (proper : context.isRegular = true)
    (shaped : context.method ∈ Method.leading ++ [.documentSymbol, .rename]) {answer : Answer}
    (regular : answer.isRegular context.method = true) :
    store.bringBack context answer =
      (.ok (answer.restore (answer.items.filterMap (store.mapItem? context))), context.restored) := by
  have unresolved : context.method ≠ .completionResolve := by
    intro resolve
    simp [resolve, Method.leading] at shaped
  rw [bringBack_eq_mapBack proper regular]
  cases answer with
  | null => rfl
  | one item | many items => simp only [mapBack, if_neg unresolved, mapAnswer_eq_restore shaped]

theorem bringBack_many (proper : context.isRegular = true)
    (listing : context.method ∈ Method.listing) {items : List Item}
    (fits : (Answer.many items).suits context.method = true) :
    (store.bringBack context (.many items)).1 =
      .ok (.many (items.filterMap (store.mapItem? context))) := by
  rw [bringBack_eq_mapBack proper (Answer.suits_items fits).1]
  exact congrArg Except.ok (mapAnswer_many listing items)

theorem bringBack_one (proper : context.isRegular = true)
    (leading : context.method ∈ Method.leading) {item : Item}
    (fits : (Answer.many [item]).suits context.method = true) :
    (store.bringBack context (.one item)).1 =
      .ok (((store.mapItem? context item).map Answer.one).getD .null) := by
  have regular := (Answer.suits_items (Answer.suits_one leading fits)).1
  rw [bringBack_eq_restore store proper (List.mem_append_left _ leading) regular, Answer.items,
    filterMap_singleton]
  cases store.mapItem? context item <;> rfl

theorem bringSymbolsBack_many {items : List Item}
    (kinds : ∀ item ∈ items, item.isWorkspaceSymbol = true) :
    store.bringSymbolsBack (.many items) = .ok (store.mapWorkspaceSymbols items) := by
  have regular : items.all Item.isRegularSymbol = true :=
    List.all_eq_true.mpr fun item member =>
      Item.isRegularSymbol_of_isWorkspaceSymbol (kinds item member)
  change (if items.all Item.isRegularSymbol = true then _ else _) = _
  rw [if_pos regular]

/-- Items are brought back one by one, whatever is next to them: the symbols, completions, hints and
places in an answer, the symbols of a workspace and the diagnostics of a document. An item is dropped
exactly if a range that is mapped in it has no place in the host; a hint may also be dropped because
nobody asked for its place. A place that comes alone is the one in the list, or nothing. -/
theorem items_brought_back_one_by_one (store : Store) :
    (∀ (context : Context) (items others : List Item), context.isRegular = true →
      context.method ∈ Method.listing →
      (Answer.many items).suits context.method = true →
      (Answer.many others).suits context.method = true →
        ∃ kept keptOthers,
          (store.bringBack context (.many items)).1 = .ok (.many kept) ∧
          (store.bringBack context (.many others)).1 = .ok (.many keptOthers) ∧
          (store.bringBack context (.many (items ++ others))).1 =
            .ok (.many (kept ++ keptOthers))) ∧
    (∀ (context : Context) (item : Item), context.isRegular = true →
      context.method ∈ Method.leading ++ [.documentSymbol, .completion] →
      (Answer.many [item]).suits context.method = true →
        ∃ kept : Option Item,
          (store.bringBack context (.many [item])).1 = .ok (.many kept.toList) ∧
          (kept = none ↔ ∃ stretch ∈ item.stretches context.asked, store.maps stretch = false) ∧
          (context.method ∈ Method.leading →
            (store.bringBack context (.one item)).1 = .ok ((kept.map Answer.one).getD .null))) ∧
    (∀ items others : List Item,
      (∀ item ∈ items, item.isWorkspaceSymbol = true) →
      (∀ item ∈ others, item.isWorkspaceSymbol = true) →
        ∃ kept keptOthers,
          store.bringSymbolsBack (.many items) = .ok kept ∧
          store.bringSymbolsBack (.many others) = .ok keptOthers ∧
          store.bringSymbolsBack (.many (items ++ others)) = .ok (kept ++ keptOthers)) ∧
    (∀ (asked : Alias) (item : Item), item.isWorkspaceSymbol = true →
      ∃ kept : Option Item, store.bringSymbolsBack (.many [item]) = .ok kept.toList ∧
        (kept = none ↔ ∃ stretch ∈ item.stretches asked, store.maps stretch = false)) ∧
    (∀ (uri : String) (document : Alias), Alias.parse? uri = some document →
      (∀ diagnostics others : List Diagnostic,
        ∃ kept keptOthers,
          store.mapPublication? uri diagnostics = some (document, kept) ∧
          store.mapPublication? uri others = some (document, keptOthers) ∧
          store.mapPublication? uri (diagnostics ++ others) = some (document, kept ++ keptOthers)) ∧
      ∀ diagnostic : Diagnostic,
        ∃ kept : Option Diagnostic,
          store.mapPublication? uri [diagnostic] = some (document, kept.toList) ∧
          (kept = none ↔
            ∃ stretch ∈ diagnostic.stretches document, store.maps stretch = false)) := by
  refine ⟨?_, ?_, ?_, ?_, ?_⟩
  · intro context items others proper listing fits fitsOthers
    refine ⟨_, _, bringBack_many proper listing fits, bringBack_many proper listing fitsOthers, ?_⟩
    rw [bringBack_many proper listing (Answer.suits_append fits fitsOthers), List.filterMap_append]
  · intro context item proper method fits
    have listing : context.method ∈ Method.listing := by
      simp only [Method.listing, List.mem_append, List.mem_cons] at method ⊢
      tauto
    have kind := (Answer.suits_items fits).2 item (by simp [Answer.items])
    refine ⟨store.mapItem? context item, ?_, eq_none_iff_unmapped (isSome_mapItem? method kind),
      fun leading => bringBack_one proper leading fits⟩
    rw [bringBack_many proper listing fits, filterMap_singleton]
  · intro items others kinds kindsOthers
    refine ⟨_, _, bringSymbolsBack_many kinds, bringSymbolsBack_many kindsOthers, ?_⟩
    rw [bringSymbolsBack_many (List.forall_mem_append.mpr ⟨kinds, kindsOthers⟩)]
    exact congrArg Except.ok List.filterMap_append
  · intro asked item kind
    refine ⟨(store.mapWorkspaceSymbol item).toOption, ?_, eq_none_iff_unmapped ?_⟩
    · rw [bringSymbolsBack_many (by simpa using kind)]
      exact congrArg Except.ok filterMap_singleton
    · rw [Except.isSome_toOption, isOk_mapWorkspaceSymbol kind asked]
  · intro uri document parsed
    have published : ∀ diagnostics, store.mapPublication? uri diagnostics =
        some (document, store.mapDiagnostics document.host document.language diagnostics) := by
      intro diagnostics
      simp only [mapPublication?, parsed, Option.map_some]
    refine ⟨?_, ?_⟩
    · intro diagnostics others
      refine ⟨_, _, published _, published _, ?_⟩
      rw [published]
      exact congrArg (fun kept => some (document, kept)) List.filterMap_append
    · intro diagnostic
      refine ⟨(store.mapDiagnostic document.host document.language diagnostic).toOption, ?_,
        eq_none_iff_unmapped ?_⟩
      · rw [published]
        exact congrArg (fun kept => some (document, kept)) filterMap_singleton
      · rw [Except.isSome_toOption, isOk_mapDiagnostic]

/-- A place on a line that the host no longer has, before a link, as the place of a symbol of the
workspace, and in the related information of a diagnostic whose own range is still there. -/
theorem items_brought_back_one_by_one_of_stale_place :
    ∃ (store : Store) (context : Context) (place : Location) (link mapped : Item)
      (symbol : SymbolInformation) (diagnostic : Diagnostic),
      context.isRegular = true ∧ context.method ∈ Method.listing ∧
      (Answer.many [.location place]).suits context.method = true ∧
      (Answer.many [link]).suits context.method = true ∧
      (store.bringBack context (.many [link])).1 = .ok (.many [mapped]) ∧
      (store.bringBack context (.many ([.location place] ++ [link]))).1 = .ok (.many [mapped]) ∧
      (store.bringBack context (.one (.location place))).1 = .ok .null ∧
      (∃ stretch ∈ place.stretches, store.maps stretch = false) ∧
      symbol.location = place ∧ store.bringSymbolsBack (.many [.symbolInformation symbol]) = .ok [] ∧
      Alias.parse? place.uri = some context.asked ∧
      store.maps ⟨context.asked, diagnostic.range⟩ = true ∧
      diagnostic.related.map (List.map RelatedInformation.location) = some [place] ∧
      store.mapPublication? place.uri [diagnostic] = some (context.asked, []) := by
  let store : Store := (fresh .compact .standard none).openHost "h" "```python\nx = 1\n```"
  let context : Context :=
    { id := 1, method := .definition, host := "h", aliasUri := "otter://h/python"
      language := "python"
      params := .document
        { type := "DefinitionParams", document := { uri := "otter://h/python" }
          position := some ⟨0, 0⟩ } }
  let inside : Range := ⟨⟨0, 0⟩, ⟨0, 1⟩⟩
  let place : Location := ⟨"otter://h/python", ⟨⟨7, 0⟩, ⟨7, 1⟩⟩⟩
  let link : Item := .locationLink ⟨"otter://h/python", inside, inside, some inside⟩
  let found : Range := ⟨⟨1, 0⟩, ⟨1, 1⟩⟩
  let mapped : Item := .locationLink ⟨"h", found, found, some found⟩
  let symbol : SymbolInformation := { name := "x", kind := .int 13, location := place }
  let diagnostic : Diagnostic := { range := inside, related := some [{ location := place }] }
  have run : (context.isRegular, (Answer.many [.location place]).suits context.method,
      (Answer.many [link]).suits context.method,
      (store.bringBack context (.many [link])).1, store.maps ⟨context.asked, place.range⟩,
      Alias.parse? place.uri, store.maps ⟨context.asked, inside⟩) =
        (true, true, true, .ok (.many [mapped]), false, some context.asked, true) := by cbv
  obtain ⟨proper, fits, fitsLink, linkOk, lost, parsed, there⟩ := by
    simpa only [Prod.mk.injEq] using run
  have leading : context.method ∈ Method.leading := by decide
  have stale : ∃ stretch ∈ place.stretches, store.maps stretch = false :=
    ⟨⟨context.asked, place.range⟩, by simp [Location.stretches, parsed], lost⟩
  obtain ⟨together, alone, -, symbols, published⟩ := items_brought_back_one_by_one store
  obtain ⟨kept, placeOk, dropped, single⟩ :=
    alone context (.location place) proper (by decide) fits
  cases dropped.mpr stale
  obtain ⟨_, _, placeOk', linkOk', bothOk⟩ :=
    together context [.location place] [link] proper (by decide) fits fitsLink
  cases placeOk.symm.trans placeOk'
  cases linkOk.symm.trans linkOk'
  obtain ⟨kept, symbolOk, dropped⟩ := symbols context.asked (.symbolInformation symbol) rfl
  cases dropped.mpr stale
  obtain ⟨kept, diagnosticOk, dropped⟩ := (published place.uri context.asked parsed).2 diagnostic
  cases dropped.mpr (by
    obtain ⟨stretch, member, unmapped⟩ := stale
    exact ⟨stretch, by simpa [diagnostic, Diagnostic.stretches] using Or.inr member, unmapped⟩)
  exact ⟨store, context, place, link, mapped, symbol, diagnostic, proper, by decide, fits, fitsLink,
    linkOk, bothOk, single leading, stale, rfl, symbolOk, parsed, there, rfl, diagnosticOk⟩

end Store

end LanguageBridge
