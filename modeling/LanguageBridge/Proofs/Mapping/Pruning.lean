import LanguageBridge.Proofs.Mapping.Independence

namespace LanguageBridge

/-! Trees of symbols. A symbol that has no place in the host is left out with all that is below it, and
the rest of the tree stays as it is. -/

namespace DocumentSymbol

/-- A symbol by itself. Whether it has a list of children can still be seen. -/
def bare (symbol : DocumentSymbol) : DocumentSymbol :=
  { symbol with children := symbol.children.map fun _ => [] }

mutual

/-- The way to each symbol of a tree, in the order of the symbols. It begins at the root, leads through
the symbols above and ends with the symbol itself. -/
def paths : DocumentSymbol → List (List DocumentSymbol)
  | ⟨name, kind, range, selectionRange, detail, children, rest⟩ =>
    let own := bare ⟨name, kind, range, selectionRange, detail, children, rest⟩
    [own] :: (childrenPaths children).map (own :: ·)

def childrenPaths : Option (List DocumentSymbol) → List (List DocumentSymbol)
  | none => []
  | some children => listPaths children

def listPaths : List DocumentSymbol → List (List DocumentSymbol)
  | [] => []
  | symbol :: rest => symbol.paths ++ listPaths rest

end

/-! ### Trees and their paths -/

theorem paths_eq (symbol : DocumentSymbol) :
    symbol.paths = [symbol.bare] :: (childrenPaths symbol.children).map (symbol.bare :: ·) := by
  obtain ⟨name, kind, range, selectionRange, detail, children, rest⟩ := symbol
  rw [paths]

theorem listPaths_append (symbols others : List DocumentSymbol) :
    listPaths (symbols ++ others) = listPaths symbols ++ listPaths others := by
  induction symbols with
  | nil => rfl
  | cons symbol rest ih => rw [List.cons_append, listPaths, listPaths, ih, List.append_assoc]

theorem ne_nil_of_mem_listPaths {symbols : List DocumentSymbol} {path : List DocumentSymbol}
    (member : path ∈ listPaths symbols) : path ≠ [] := by
  induction symbols with
  | nil => contradiction
  | cons symbol rest ih =>
    rw [listPaths, paths_eq] at member
    rcases List.mem_append.mp member with own | later
    · rcases List.mem_cons.mp own with rfl | below
      · simp
      · obtain ⟨_, _, rfl⟩ := List.mem_map.mp below
        simp
    · exact ih later

theorem ne_nil_of_mem_childrenPaths {children : Option (List DocumentSymbol)}
    {path : List DocumentSymbol} (member : path ∈ childrenPaths children) : path ≠ [] := by
  cases children with
  | none => contradiction
  | some children => exact ne_nil_of_mem_listPaths member

theorem singleton_of_listPaths {symbols : List DocumentSymbol} {path : List DocumentSymbol}
    {rest : List (List DocumentSymbol)} (first : listPaths symbols = path :: rest) :
    ∃ own, path = [own] := by
  cases symbols with
  | nil => contradiction
  | cons symbol symbols =>
    rw [listPaths, paths_eq] at first
    exact ⟨symbol.bare, (List.cons.inj first).1.symm⟩

/-- The paths below a symbol end where those of the next symbol beside it begin. -/
theorem append_listPaths_inj {own : DocumentSymbol} {below otherBelow : List (List DocumentSymbol)}
    (filled : ∀ path ∈ below, path ≠ []) (otherFilled : ∀ path ∈ otherBelow, path ≠ [])
    {symbols others : List DocumentSymbol}
    (same : below.map (own :: ·) ++ listPaths symbols =
      otherBelow.map (own :: ·) ++ listPaths others) :
    below = otherBelow ∧ listPaths symbols = listPaths others := by
  induction below generalizing otherBelow with
  | nil =>
    cases otherBelow with
    | nil => exact ⟨rfl, same⟩
    | cons path paths =>
      obtain ⟨_, alone⟩ := singleton_of_listPaths same
      exact absurd (List.cons.inj alone).2 (otherFilled path List.mem_cons_self)
  | cons path paths ih =>
    cases otherBelow with
    | nil =>
      obtain ⟨_, alone⟩ := singleton_of_listPaths same.symm
      exact absurd (List.cons.inj alone).2 (filled path List.mem_cons_self)
    | cons otherPath otherPaths =>
      obtain ⟨head, tail⟩ := List.cons.inj same
      obtain ⟨below, beside⟩ := ih (fun path later => filled path (List.mem_cons_of_mem _ later))
        (fun path later => otherFilled path (List.mem_cons_of_mem _ later)) tail
      rw [(List.cons.inj head).2, below]
      exact ⟨rfl, beside⟩

mutual

theorem children_injective : ∀ children others : Option (List DocumentSymbol),
    (children.map fun _ => ([] : List DocumentSymbol)) = others.map (fun _ => []) →
      childrenPaths children = childrenPaths others → children = others
  | none, none, _, _ => rfl
  | some children, some others, _, same =>
    congrArg some (listPaths_injective children others same)

/-- A tree is settled by its paths. -/
theorem listPaths_injective : ∀ symbols others : List DocumentSymbol,
    listPaths symbols = listPaths others → symbols = others
  | [], [], _ => rfl
  | [], other :: others, same => by simp [listPaths, paths_eq] at same
  | symbol :: symbols, [], same => by simp [listPaths, paths_eq] at same
  | ⟨name, kind, range, selectionRange, detail, children, rest⟩ :: symbols,
      ⟨_, _, _, _, _, others, _⟩ :: otherSymbols, same => by
      -- the root comes first, then what is below it, up to the next root
      simp only [listPaths, paths_eq, List.cons_append, List.cons.injEq, and_true] at same
      obtain ⟨own, later⟩ := same
      rw [own] at later
      obtain ⟨below, beside⟩ := append_listPaths_inj (fun _ => ne_nil_of_mem_childrenPaths)
        (fun _ => ne_nil_of_mem_childrenPaths) later
      simp only [bare, DocumentSymbol.mk.injEq] at own
      obtain ⟨rfl, rfl, rfl, rfl, rfl, listed, rfl⟩ := own
      rw [children_injective children others listed below,
        listPaths_injective symbols otherSymbols beside]

end

end DocumentSymbol

/-! ### Mapped trees -/

namespace Store

variable {store : Store} {context : Context}

/-- A symbol with its own two ranges mapped and all else as it was. -/
def mapOwn (store : Store) (context : Context) (symbol : DocumentSymbol) : Option DocumentSymbol :=
  match store.mapRange context.host context.language symbol.range,
    store.mapRange context.host context.language symbol.selectionRange with
  | .ok range, .ok selectionRange =>
    some { symbol with range := range, selectionRange := selectionRange }
  | _, _ => none

/-- Whether both ranges of a symbol have a place in the host. -/
def mapsOwn (store : Store) (context : Context) (symbol : DocumentSymbol) : Bool :=
  store.maps ⟨context.asked, symbol.range⟩ && store.maps ⟨context.asked, symbol.selectionRange⟩

theorem toOption_mapSymbol (symbol : DocumentSymbol) :
    (store.mapSymbol context symbol).toOption =
      (store.mapOwn context symbol).map fun own =>
        { own with children := mapChildren store context symbol.children } := by
  obtain ⟨name, kind, range, selectionRange, detail, children, rest⟩ := symbol
  simp only [mapSymbol, mapOwn]
  cases store.mapRange context.host context.language range with
  | error fault => rfl
  | ok own => cases store.mapRange context.host context.language selectionRange <;> rfl

theorem isSome_mapOwn (symbol : DocumentSymbol) :
    (store.mapOwn context symbol).isSome = store.mapsOwn context symbol := by
  have whole : (store.mapSymbol context symbol).toOption.isSome = _ :=
    congrArg Option.isSome (toOption_mapSymbol symbol)
  rw [Option.isSome_map, Except.isSome_toOption, isOk_mapSymbol] at whole
  exact whole.symm

theorem isSome_mapM_mapOwn (path : List DocumentSymbol) :
    (path.mapM (store.mapOwn context)).isSome = path.all (store.mapsOwn context) := by
  induction path with
  | nil => rfl
  | cons symbol path ih =>
    rw [List.mapM_cons, List.all_cons, ← isSome_mapOwn, ← ih]
    cases store.mapOwn context symbol with
    | none => rfl
    | some mapped => cases path.mapM (store.mapOwn context) <;> rfl

theorem mapOwn_bare (symbol : DocumentSymbol) :
    store.mapOwn context symbol.bare = (store.mapOwn context symbol).map DocumentSymbol.bare := by
  unfold mapOwn DocumentSymbol.bare
  cases store.mapRange context.host context.language symbol.range with
  | error fault => rfl
  | ok own => cases store.mapRange context.host context.language symbol.selectionRange <;> rfl

theorem bare_mapChildren {symbol own : DocumentSymbol}
    (found : store.mapOwn context symbol = some own) :
    DocumentSymbol.bare { own with children := mapChildren store context symbol.children } =
      own.bare := by
  have same : own.children = symbol.children := by
    unfold mapOwn at found
    split at found
    · cases found
      rfl
    · contradiction
  rw [DocumentSymbol.bare, DocumentSymbol.bare, same]
  cases symbol.children <;> rfl

/-- The paths that remain when symbols without a place in the host are left out: those on which every
symbol has one. -/
def prunedPaths (store : Store) (context : Context) (paths : List (List DocumentSymbol)) :
    List (List DocumentSymbol) :=
  paths.filterMap fun path => path.mapM (store.mapOwn context)

theorem prunedPaths_of_none {own : DocumentSymbol} (lost : store.mapOwn context own = none)
    (below : List (List DocumentSymbol)) :
    store.prunedPaths context ([own] :: below.map (own :: ·)) = [] := by
  have each : ∀ path, (own :: path).mapM (store.mapOwn context) = none := by
    intro path
    rw [List.mapM_cons, lost]
    rfl
  refine List.filterMap_eq_nil_iff.mpr fun path member => ?_
  rcases List.mem_cons.mp member with rfl | inBelow
  · exact each []
  · obtain ⟨path, _, rfl⟩ := List.mem_map.mp inBelow
    exact each path

theorem prunedPaths_of_some {own mapped : DocumentSymbol}
    (found : store.mapOwn context own = some mapped) (below : List (List DocumentSymbol)) :
    store.prunedPaths context ([own] :: below.map (own :: ·)) =
      [mapped] :: (store.prunedPaths context below).map (mapped :: ·) := by
  have each : ∀ path, (own :: path).mapM (store.mapOwn context) =
      (path.mapM (store.mapOwn context)).map (mapped :: ·) := by
    intro path
    rw [List.mapM_cons, found]
    cases path.mapM (store.mapOwn context) <;> rfl
  unfold prunedPaths
  rw [List.filterMap_cons_some (each []), List.filterMap_map, List.map_filterMap]
  exact congrArg _ (List.filterMap_congr fun path _ => each path)

/-- What is done to a tree, if it is done to the trees below its root. -/
theorem listPaths_mapSymbol {symbol : DocumentSymbol}
    (below : DocumentSymbol.childrenPaths (mapChildren store context symbol.children) =
      store.prunedPaths context (DocumentSymbol.childrenPaths symbol.children)) :
    DocumentSymbol.listPaths (store.mapSymbol context symbol).toOption.toList =
      store.prunedPaths context symbol.paths := by
  have bare : store.mapOwn context symbol.bare = _ := mapOwn_bare symbol
  rw [toOption_mapSymbol, DocumentSymbol.paths_eq]
  cases found : store.mapOwn context symbol with
  | none =>
    rw [found] at bare
    rw [prunedPaths_of_none bare]
    rfl
  | some own =>
    rw [found] at bare
    rw [prunedPaths_of_some bare, ← below]
    simp only [Option.map_some, Option.toList_some, DocumentSymbol.listPaths, List.append_nil,
      DocumentSymbol.paths_eq, bare_mapChildren found]

mutual

theorem childrenPaths_mapChildren : ∀ children : Option (List DocumentSymbol),
    DocumentSymbol.childrenPaths (mapChildren store context children) =
      store.prunedPaths context (DocumentSymbol.childrenPaths children)
  | none => rfl
  | some children => listPaths_mapSymbolList children

theorem listPaths_mapSymbolList : ∀ symbols : List DocumentSymbol,
    DocumentSymbol.listPaths (mapSymbolList store context symbols) =
      store.prunedPaths context (DocumentSymbol.listPaths symbols)
  | [] => rfl
  | ⟨name, kind, range, selectionRange, detail, children, rest⟩ :: symbols => by
      rw [mapSymbolList, DocumentSymbol.listPaths_append,
        listPaths_mapSymbol (childrenPaths_mapChildren children), listPaths_mapSymbolList symbols]
      exact List.filterMap_append.symm

end

theorem mapSymbolList_eq_filterMap (symbols : List DocumentSymbol) :
    mapSymbolList store context symbols =
      symbols.filterMap fun symbol => (store.mapSymbol context symbol).toOption := by
  induction symbols with
  | nil => rfl
  | cons symbol rest ih =>
    rw [mapSymbolList, ih, List.filterMap_cons]
    cases (store.mapSymbol context symbol).toOption <;> rfl

end Store

/-! ### Answers -/

def Item.tree? : Item → Option DocumentSymbol
  | documentSymbol symbol => some symbol
  | _ => none

/-- The trees of symbols in an answer. -/
def Answer.trees (answer : Answer) : List DocumentSymbol :=
  answer.items.filterMap Item.tree?

namespace Store

theorem tree?_mapSymbolItem (store : Store) (context : Context) (item : Item) :
    (store.mapSymbolItem context item).toOption.bind Item.tree? =
      item.tree?.bind fun symbol => (store.mapSymbol context symbol).toOption := by
  cases item with
  | documentSymbol symbol =>
    simp only [mapSymbolItem, Item.tree?, Option.bind_some]
    cases store.mapSymbol context symbol <;> rfl
  | symbolInformation symbol =>
    simp only [mapSymbolItem, Item.tree?, Option.bind_none]
    cases store.mapLocation symbol.location <;> rfl
  | _ => rfl

theorem trees_restore {store : Store} {context : Context} (method : context.method = .documentSymbol)
    (answer : Answer) :
    (answer.restore (answer.items.filterMap (store.mapItem? context))).trees =
      mapSymbolList store context answer.trees := by
  have rule : store.mapItem? context = fun item => (store.mapSymbolItem context item).toOption := by
    unfold mapItem?
    rw [method]
  rw [Answer.trees, Answer.items_restore, rule, mapSymbolList_eq_filterMap, Answer.trees,
    List.filterMap_filterMap, List.filterMap_filterMap]
  exact List.filterMap_congr fun item _ => store.tree?_mapSymbolItem context item

/-- The trees of symbols in an answer come back pruned: a symbol stays exactly if both ranges of it and
of all symbols above it have a place in the host. It then has the mapped ranges, and all else about it
is as it was: its fields, what it is below and what it stands between. Trees are compared by the paths
to their symbols, and no other trees have the paths that remain. -/
theorem symbol_trees_pruned (store : Store) (context : Context) (answer : Answer)
    (proper : context.isRegular = true) (method : context.method = .documentSymbol)
    (regular : answer.isRegular .documentSymbol = true) :
    (∃ mapped, (store.bringBack context answer).1 = .ok mapped ∧
      ∀ trees, mapped.trees = trees ↔
        DocumentSymbol.listPaths trees =
          (DocumentSymbol.listPaths answer.trees).filterMap fun path =>
            path.mapM (store.mapOwn context)) ∧
    ∀ path : List DocumentSymbol, (path.mapM (store.mapOwn context)).isSome = true ↔
      ∀ symbol ∈ path, store.maps ⟨context.asked, symbol.range⟩ = true ∧
        store.maps ⟨context.asked, symbol.selectionRange⟩ = true := by
  constructor
  · refine ⟨_, congrArg Prod.fst (bringBack_eq_restore store proper (by simp [method])
      (method ▸ regular)), fun trees => ?_⟩
    rw [trees_restore method]
    have pruned : DocumentSymbol.listPaths (mapSymbolList store context answer.trees) = _ :=
      listPaths_mapSymbolList answer.trees
    constructor
    · rintro rfl
      exact pruned
    · intro same
      exact DocumentSymbol.listPaths_injective _ _ (pruned.trans same.symm)
  · intro path
    rw [isSome_mapM_mapOwn, List.all_eq_true]
    simp only [mapsOwn, Bool.and_eq_true]

/-- The first child of a symbol is about a line that the host no longer has and takes a symbol along
that could have stayed. The second child stays, with an empty list of children. -/
theorem symbol_trees_pruned_below_stale_child :
    ∃ (store : Store) (context : Context) (lost kept : DocumentSymbol) (tree mapped : DocumentSymbol),
      context.isRegular = true ∧ context.method = .documentSymbol ∧
      (Answer.one (.documentSymbol tree)).isRegular .documentSymbol = true ∧
      DocumentSymbol.listPaths [tree] = [[tree.bare], [tree.bare, lost.bare],
        [tree.bare, lost.bare, kept], [tree.bare, kept]] ∧
      store.mapsOwn context lost = false ∧ store.mapsOwn context kept = true ∧
      (store.bringBack context (.one (.documentSymbol tree))).1 =
        .ok (.one (.documentSymbol mapped)) ∧
      DocumentSymbol.listPaths [mapped] = (DocumentSymbol.listPaths [tree]).filterMap (fun path =>
        path.mapM (store.mapOwn context)) ∧
      (DocumentSymbol.listPaths [mapped]).map (List.map DocumentSymbol.name) =
        [["f"], ["f", "y"]] := by
  let store : Store := (fresh .compact .standard none).openHost "h" "```python\nx = 1\n```"
  let context : Context :=
    { id := 1, method := .documentSymbol, host := "h", aliasUri := "otter://h/python"
      language := "python"
      params := .document
        { type := "DocumentSymbolParams", document := { uri := "otter://h/python" } } }
  let inside : Range := ⟨⟨0, 0⟩, ⟨0, 1⟩⟩
  let below : Range := ⟨⟨7, 0⟩, ⟨7, 1⟩⟩
  let found : Range := ⟨⟨1, 0⟩, ⟨1, 1⟩⟩
  let kept : DocumentSymbol := ⟨"y", .int 13, inside, inside, none, some [], []⟩
  let lost : DocumentSymbol := ⟨"x", .int 13, inside, below, none, some [kept], []⟩
  let tree : DocumentSymbol := ⟨"f", .int 12, inside, inside, none, some [lost, kept], []⟩
  let mapped : DocumentSymbol :=
    ⟨"f", .int 12, found, found, none, some [⟨"y", .int 13, found, found, none, some [], []⟩], []⟩
  have run : (context.isRegular,
      (Answer.one (.documentSymbol tree)).isRegular .documentSymbol,
      store.mapsOwn context lost, store.mapsOwn context kept,
      (store.bringBack context (.one (.documentSymbol tree))).1) =
        (true, true, false, true, .ok (.one (.documentSymbol mapped))) := by cbv
  obtain ⟨proper, regular, isLost, isKept, ok⟩ := by simpa only [Prod.mk.injEq] using run
  obtain ⟨_, brought, settled⟩ :=
    (symbol_trees_pruned store context (.one (.documentSymbol tree)) proper rfl regular).1
  cases ok.symm.trans brought
  exact ⟨store, context, lost, kept, tree, mapped, proper, rfl, regular, rfl, isLost, isKept, ok,
    (settled [mapped]).mp rfl, rfl⟩

end Store

end LanguageBridge
