import LanguageBridge.Proofs.Mapping.Answers

namespace LanguageBridge

/-! Ranges inside one another. The end of a range may lie on the line behind a chunk, where nothing is
mapped, and is then put on the host line behind the chunk. This keeps the order of places, so a range
that lies in another still does so when both are mapped. -/

/-- Both ends of a range are in another; they may be the same. -/
def Range.within (inner outer : Range) : Bool :=
  outer.start.before inner.start && inner.stop.before outer.stop

namespace DocumentSymbol

mutual

/-- Each selection range lies in the range of its symbol, and each symbol in the one above it. -/
def nested : DocumentSymbol → Bool
  | ⟨_, _, range, selectionRange, _, children, _⟩ =>
    selectionRange.within range && childrenNested range children

def childrenNested (outer : Range) : Option (List DocumentSymbol) → Bool
  | none => true
  | some children => listNested outer children

def listNested (outer : Range) : List DocumentSymbol → Bool
  | [] => true
  | symbol :: rest => symbol.range.within outer && symbol.nested && listNested outer rest

end

end DocumentSymbol

/-! ### Ends of ranges -/

namespace Document

variable {document : Document}

/-- Where the end of a range is put: on the line it is mapped to, or, at the start of a line that is not
mapped, behind the line before it. -/
inductive EndsAt (document : Document) (place : Position) : Position → Prop where
  | inside {found : Position} (ok : document.toHost place = .ok found) : EndsAt document place found
  | behind {fault : Fault} {last : Position} (column : place.character = 0)
      (failed : document.toHost place = .error fault)
      (ok : document.toHost ⟨place.line - 1, 0⟩ = .ok last) :
      EndsAt document place ⟨last.line + 1, 0⟩

/-- Whether a place is mapped is up to its line. -/
theorem line_ne_of_toHost {place other found : Position} {fault : Fault}
    (ok : document.toHost place = .ok found) (failed : document.toHost other = .error fault) :
    place.line ≠ other.line := by
  intro same
  unfold toHost at ok failed
  rw [same] at ok
  cases held : document.chunkAtSynthetic? other.line <;> simp [held] at ok failed

theorem toHost_before (mapped : document.Mapped) {place other found foundOther : Position}
    (ok : document.toHost place = .ok found) (okOther : document.toHost other = .ok foundOther)
    (ordered : place.before other = true) : found.before foundOther = true := by
  have column := toHost_character ok
  have columnOther := toHost_character okOther
  rw [Position.before_iff] at ordered ⊢
  rcases ordered with less | ⟨same, columns⟩
  · exact .inl (toHost_increasing mapped ok okOther less)
  · have up := toHost_monotone mapped ok okOther (by omega)
    have down := toHost_monotone mapped okOther ok (by omega)
    omega

theorem EndsAt.before (mapped : document.Mapped) {place other found foundOther : Position}
    (ends : document.EndsAt place found) (endsOther : document.EndsAt other foundOther)
    (counted : 0 ≤ other.character) (ordered : place.before other = true) :
    found.before foundOther = true := by
  have lines := Position.before_iff.mp ordered
  cases ends with
  | inside ok =>
    cases endsOther with
    | inside okOther => exact toHost_before mapped ok okOther ordered
    | behind columnOther failed lastOk =>
      have apart := line_ne_of_toHost ok failed
      have up := toHost_monotone mapped ok lastOk (by simp only; omega)
      exact Position.before_iff.mpr (.inl (by simp only; omega))
  | behind column failed lastOk =>
    cases endsOther with
    | inside okOther =>
      -- the next chunk may begin on the very line that the end is put on
      have apart := line_ne_of_toHost okOther failed
      have up := toHost_increasing mapped lastOk okOther (by simp only; omega)
      have columnOther := toHost_character okOther
      rw [Position.before_iff]
      simp only
      omega
    | behind columnOther failedOther lastOkOther =>
      have up := toHost_monotone mapped lastOk lastOkOther (by simp only; omega)
      rw [Position.before_iff]
      simp only
      omega

end Document

/-! ### Ranges and symbols -/

namespace Store

variable {store settings : Store} {uri language : String}

/-- The ends of a mapped range, in the one document that maps them. -/
theorem ends_of_mapRange {range mapped : Range}
    (ok : store.mapRange uri language range = .ok mapped) :
    ∃ document, store.get? uri language = some document ∧
      document.toHost range.start = .ok mapped.start ∧
      document.EndsAt range.stop mapped.stop := by
  obtain ⟨startOk, ends⟩ := mapRange_eq_ok ok
  cases found : store.get? uri language with
  | none => simp [toHost, found] at startOk
  | some document =>
    have here : ∀ place, store.toHost uri language place = document.toHost place := by
      simp [toHost, found]
    simp only [here] at startOk ends
    refine ⟨document, rfl, startOk, ?_⟩
    rcases ends with stopOk | ⟨column, _, ⟨fault, failed⟩, last, lastOk, stop⟩
    · exact .inside stopOk
    · rw [stop]
      exact .behind column failed lastOk

theorem mapRange_within
    (laid : ∀ document, store.get? uri language = some document → document.Mapped)
    {inner outer mappedInner mappedOuter : Range} (counted : 0 ≤ outer.stop.character)
    (inside : inner.within outer = true)
    (ok : store.mapRange uri language inner = .ok mappedInner)
    (okOuter : store.mapRange uri language outer = .ok mappedOuter) :
    mappedInner.within mappedOuter = true := by
  obtain ⟨document, found, start, stop⟩ := ends_of_mapRange ok
  obtain ⟨_, same, startOuter, stopOuter⟩ := ends_of_mapRange okOuter
  cases found.symm.trans same
  rw [Range.within, Bool.and_eq_true] at inside ⊢
  exact ⟨Document.toHost_before (laid document found) startOuter start inside.1,
    stop.before (laid document found) stopOuter counted inside.2⟩

theorem reached_mapped {allowed : Store → StoreStep → Prop} {history : List StoreStep}
    (reached : Reached apply allowed settings history store) (empty : settings.hosts = .empty)
    {document : Document} (found : store.get? uri language = some document) : document.Mapped := by
  obtain ⟨host, tracked, held⟩ := Option.bind_eq_some_iff.mp found
  exact (reached_mapping reached empty tracked).mapped language document held

section Symbols

variable {context : Context} {asked : String}

mutual

theorem mapSymbol_nested (laid : ∀ document,
      store.get? context.host context.language = some document → document.Mapped) :
    ∀ (symbol : DocumentSymbol) {mapped : DocumentSymbol}, symbol.nested = true →
      (∀ place ∈ symbol.places asked, 0 ≤ place.range.stop.character) →
        store.mapSymbol context symbol = .ok mapped → mapped.nested = true
  | ⟨name, kind, range, selectionRange, detail, children, rest⟩, mapped, isNested, counted, ok => by
      obtain ⟨own, selected, ownOk, selectedOk, rfl⟩ := mapSymbol_eq_ok ok
      rw [DocumentSymbol.nested, Bool.and_eq_true] at isNested
      have ownCounted : 0 ≤ range.stop.character := counted ⟨asked, range⟩ (by
        simp [DocumentSymbol.places])
      have below := mapChildren_nested laid children isNested.2 ownCounted ownOk
        fun place member => counted place (by
          rw [DocumentSymbol.places]
          exact List.mem_append_right _ member)
      rw [DocumentSymbol.nested, Bool.and_eq_true]
      exact ⟨mapRange_within laid ownCounted isNested.1 selectedOk ownOk, below⟩

theorem mapChildren_nested (laid : ∀ document,
      store.get? context.host context.language = some document → document.Mapped) :
    ∀ (children : Option (List DocumentSymbol)) {outer mappedOuter : Range},
      DocumentSymbol.childrenNested outer children = true → 0 ≤ outer.stop.character →
        store.mapRange context.host context.language outer = .ok mappedOuter →
          (∀ place ∈ DocumentSymbol.childrenPlaces asked children,
            0 ≤ place.range.stop.character) →
          DocumentSymbol.childrenNested mappedOuter (mapChildren store context children) = true
  | none, _, _, _, _, _, _ => rfl
  | some children, _, _, isNested, outerCounted, okOuter, counted =>
    mapSymbolList_nested laid children isNested outerCounted okOuter counted

theorem mapSymbolList_nested (laid : ∀ document,
      store.get? context.host context.language = some document → document.Mapped) :
    ∀ (symbols : List DocumentSymbol) {outer mappedOuter : Range},
      DocumentSymbol.listNested outer symbols = true → 0 ≤ outer.stop.character →
        store.mapRange context.host context.language outer = .ok mappedOuter →
          (∀ place ∈ DocumentSymbol.listPlaces asked symbols, 0 ≤ place.range.stop.character) →
          DocumentSymbol.listNested mappedOuter (mapSymbolList store context symbols) = true
  | [], _, _, _, _, _, _ => rfl
  | symbol :: rest, outer, mappedOuter, isNested, outerCounted, okOuter, counted => by
      rw [DocumentSymbol.listNested, Bool.and_eq_true, Bool.and_eq_true] at isNested
      rw [DocumentSymbol.listPlaces] at counted
      have later := mapSymbolList_nested laid rest isNested.2 outerCounted okOuter
        fun place member => counted place (List.mem_append_right _ member)
      rw [mapSymbolList]
      cases ok : store.mapSymbol context symbol with
      | error fault => exact later
      | ok mapped =>
        have own := mapSymbol_nested laid symbol isNested.1.2
          (fun place member => counted place (List.mem_append_left _ member)) ok
        obtain ⟨range, _, rangeOk, _, rfl⟩ := mapSymbol_eq_ok ok
        have inside := mapRange_within laid outerCounted isNested.1.1 rangeOk okOuter
        simp only [Except.toOption, Option.toList_some, List.singleton_append,
          DocumentSymbol.listNested, Bool.and_eq_true]
        exact ⟨⟨inside, own⟩, later⟩

end

end Symbols

/-- Ranges that lie in one another in a synthetic document do so in the host as well, wherever their
ends are put. So a tree of symbols comes back with each selection range in the range of its symbol and
each child in its parent. Characters count from zero. -/
theorem mapped_ranges_nested {padding : Padding} {names : LanguageNames}
    {rules : Option (List Rule)} {history : List StoreStep}
    (reached : Reached apply Anything (fresh padding names rules) history store) :
    (∀ uri language inner outer mappedInner mappedOuter, 0 ≤ outer.stop.character →
      inner.within outer = true → store.mapRange uri language inner = .ok mappedInner →
        store.mapRange uri language outer = .ok mappedOuter →
          mappedInner.within mappedOuter = true) ∧
    ∀ context symbol mapped asked, symbol.nested = true →
      (∀ place ∈ symbol.places asked, 0 ≤ place.range.stop.character) →
        store.mapSymbol context symbol = .ok mapped → mapped.nested = true := by
  constructor
  · intro uri language inner outer mappedInner mappedOuter counted inside ok okOuter
    exact mapRange_within (fun _ found => reached_mapped reached rfl found) counted inside ok okOuter
  · intro context symbol mapped asked isNested counted ok
    exact mapSymbol_nested (fun _ found => reached_mapped reached rfl found) symbol isNested counted ok

/-- Two chunks without a line between them. The inner range ends behind the first chunk and the outer
one at the start of the second, which is the same host line. -/
theorem mapped_ranges_nested_at_touching_chunks :
    let rules : List Rule :=
      [.tag ⟨"x", .literal "<a>".toList, .literal "</a>".toList⟩,
        .tag ⟨"x", .literal "<b>".toList, .literal "</b>".toList⟩]
    let inner : Range := ⟨⟨0, 1⟩, ⟨1, 0⟩⟩
    let outer : Range := ⟨⟨0, 0⟩, ⟨2, 0⟩⟩
    let symbol : DocumentSymbol :=
      { name := "p", kind := .null, range := outer, selectionRange := inner,
        children := some [{ name := "c", kind := .null, range := inner, selectionRange := inner }] }
    ∃ history store, Reached apply Anything (fresh .compact {} (some rules)) history store ∧
      inner.within outer = true ∧
      store.mapRange "h" "x" inner = .ok ⟨⟨1, 1⟩, ⟨2, 0⟩⟩ ∧
      store.mapRange "h" "x" outer = .ok ⟨⟨1, 0⟩, ⟨2, 0⟩⟩ ∧
      Range.within ⟨⟨1, 1⟩, ⟨2, 0⟩⟩ ⟨⟨1, 0⟩, ⟨2, 0⟩⟩ = true ∧
      ∃ mapped, store.mapSymbol ⟨1, .documentSymbol, "h", "otter://h/x", "x", default, .null⟩ symbol =
        .ok mapped ∧ mapped.nested = true := by
  intro rules inner outer symbol
  let opening : StoreStep := .openHost "h" "<a>\n<b>\n</a>\n</b>" none
  have reached : Reached apply Anything (fresh .compact {} (some rules)) [opening]
      ((fresh .compact {} (some rules)).apply opening) := .step .start opening trivial
  obtain ⟨ranges, symbols⟩ := mapped_ranges_nested reached
  have insideOuter : inner.within outer = true := by decide
  have held : ((fresh .compact {} (some rules)).apply opening).get? "h" "x" =
      some ⟨"x", "h", "<b>\n\n</a>\n", [⟨"x", 1, 1, 0⟩, ⟨"x", 2, 2, 2⟩], 1, [0, 2], [1, 2]⟩ := by cbv
  have mappedInner : ((fresh .compact {} (some rules)).apply opening).mapRange "h" "x" inner =
      .ok ⟨⟨1, 1⟩, ⟨2, 0⟩⟩ := by
    simp only [mapRange, mapPosition, toHost, held]
    cbv
  have mappedOuter : ((fresh .compact {} (some rules)).apply opening).mapRange "h" "x" outer =
      .ok ⟨⟨1, 0⟩, ⟨2, 0⟩⟩ := by
    simp only [mapRange, mapPosition, toHost, held]
    cbv
  refine ⟨_, _, reached, insideOuter, mappedInner, mappedOuter,
    ranges _ _ _ _ _ _ (by decide) insideOuter mappedInner mappedOuter, ?_⟩
  have mappedSymbol : ∃ mapped, ((fresh .compact {} (some rules)).apply opening).mapSymbol
      ⟨1, .documentSymbol, "h", "otter://h/x", "x", default, .null⟩ symbol = .ok mapped := by
    simp only [mapSymbol, symbol, mappedInner, mappedOuter]
    exact ⟨_, rfl⟩
  obtain ⟨mapped, ok⟩ := mappedSymbol
  have counted : ∀ place ∈ symbol.places "otter://h/x", 0 ≤ place.range.stop.character := by decide
  exact ⟨mapped, ok, symbols _ _ _ "otter://h/x" (by decide) counted ok⟩

end Store

end LanguageBridge
