import LanguageBridge.Proofs.Bridge.WholeDocuments
import LanguageBridge.Proofs.Mapping.Independence

namespace LanguageBridge

/-! Hints for a range of the host. The child servers are asked for the hints of their whole documents,
and the range is applied to what comes back: it shows the hints whose places lie in it, its two ends
included, and no others. -/

/-! ### What child servers are asked for -/

theorem Document.Mapped.syntheticEnd_lt {document : Document} (mapped : document.Mapped)
    {chunk : Chunk} (member : chunk ∈ document.chunks) : chunk.syntheticEnd < document.lineCount := by
  cases isLast : document.chunks.getLast? with
  | none =>
    rw [List.getLast?_eq_none_iff.mp isLast] at member
    contradiction
  | some last =>
    obtain ⟨earlier, isSplit⟩ := List.getLast?_eq_some_iff.mp isLast
    have valid := mapped.laid.valid last (isSplit ▸ List.mem_append_right _ List.mem_cons_self)
    have apart := mapped.laid.syntheticApart
    simp only [lineCount, isLast]
    rw [isSplit] at member apart
    rcases List.mem_append.mp member with inEarlier | isChunk
    · have before := (List.pairwise_append.mp apart).2.2 chunk inEarlier last List.mem_cons_self
      simp only [Chunk.syntheticEnd, Chunk.lineCount] at before ⊢
      omega
    · rw [List.mem_singleton.mp isChunk]
      omega

theorem Document.Mapped.wholeRange_covers {document : Document} (mapped : document.Mapped)
    {chunk : Chunk} (member : chunk ∈ document.chunks) (grounded : 0 ≤ chunk.syntheticStart)
    {place : Position} (inside : chunk.containsSynthetic place.line = true)
    (counted : 0 ≤ place.character) : (Router.wholeRange document).covers place = true := by
  have below := mapped.syntheticEnd_lt member
  rw [Chunk.containsSynthetic_iff] at inside
  rw [Range.covers, Bool.and_eq_true, Position.before_iff, Position.before_iff]
  simp only [Router.wholeRange]
  omega

theorem Store.reached_syntheticStart {store settings : Store} {allowed : Store → StoreStep → Prop}
    {history : List StoreStep} (reached : Reached apply allowed settings history store)
    (empty : settings.hosts = .empty) {uri language : String} {document : Document}
    (found : store.get? uri language = some document) :
    ∀ chunk ∈ document.chunks, 0 ≤ chunk.syntheticStart :=
  reached_chunks reached empty (fun _ _ _ => Layout.below_after 0 none _) found

/-! ### Hints that are mapped -/

def HintLabel.stretches : HintLabel → List Stretch
  | .parts labels => labels.flatMap fun part => part.location.toList.flatMap Location.stretches
  | .other _ => []

/-- The ranges that are mapped in a hint, beside its place. -/
def InlayHint.stretches (asked : Alias) (hint : InlayHint) : List Stretch :=
  TextEdit.stretches asked (hint.edits.getD []) ++ hint.label.stretches

namespace Store

variable {store : Store} {context : Context} {wanted : Range}

theorem isOk_mapLabelPart (part : LabelPart) :
    (store.mapLabelPart part).isOk =
      (part.location.toList.flatMap Location.stretches).all store.maps := by
  rw [mapLabelPart, Except.isOk_map, isOk_mapOptional, List.all_flatMap]
  simp only [isOk_mapLocation]

theorem isOk_mapLabel (label : HintLabel) :
    (store.mapLabel label).isOk = label.stretches.all store.maps := by
  cases label with
  | other value => rfl
  | parts parts =>
    rw [mapLabel, Except.isOk_map, HintLabel.stretches]
    induction parts with
    | nil => rfl
    | cons part rest ih =>
      rw [List.flatMap_cons, List.all_append, ← ih, ← isOk_mapLabelPart, mapLabelParts]
      cases store.mapLabelPart part with
      | error fault => rfl
      | ok mapped => exact Except.isOk_map

theorem isOk_mapHint (hint : InlayHint) :
    (store.mapHint context hint).isOk =
      ((store.toHost context.host context.language hint.position).isOk &&
        (hint.stretches context.asked).all store.maps) := by
  rw [InlayHint.stretches, List.all_append, ← isOk_mapOptionalEdits, ← isOk_mapLabel]
  exact Except.isOk_bind fun _ => Except.isOk_bind fun _ => Except.isOk_bind_ok

/-- A hint as the host shows it. -/
structure Moves (store : Store) (asked : Alias) (hint moved : InlayHint) : Prop where
  position : store.toHost asked.host asked.language hint.position = .ok moved.position
  edits : mapOptional (store.mapEdits asked.host asked.language) hint.edits = .ok moved.edits
  label : store.mapLabel hint.label = .ok moved.label
  rest : moved.rest = hint.rest

theorem moves_of_mapHint {hint moved : InlayHint} (ok : store.mapHint context hint = .ok moved) :
    store.Moves context.asked hint moved := by
  obtain ⟨position, positionOk, ok⟩ := Except.bind_eq_ok ok
  obtain ⟨edits, editsOk, ok⟩ := Except.bind_eq_ok ok
  obtain ⟨label, labelOk, ok⟩ := Except.bind_eq_ok ok
  cases ok
  exact ⟨positionOk, editsOk, labelOk, rfl⟩

/-! ### Hints that are shown -/

/-- Whether a hint belongs to a range of the host: its place there lies in the range, and whatever is
mapped in it has a place in the host. -/
def shows (store : Store) (asked : Alias) (wanted : Range) (hint : InlayHint) : Bool :=
  (store.toHost asked.host asked.language hint.position).toOption.any wanted.covers &&
    (hint.stretches asked).all store.maps

theorem shows_of_mapHint {hint moved : InlayHint} (ok : store.mapHint context hint = .ok moved) :
    store.shows context.asked wanted hint = wanted.covers moved.position := by
  have whole : (store.mapHint context hint).isOk = _ := isOk_mapHint hint
  rw [ok] at whole
  obtain ⟨-, others⟩ := Bool.and_eq_true_iff.mp whole.symm
  rw [shows, (moves_of_mapHint ok).position, others, Bool.and_true]
  rfl

theorem not_shows_of_mapHint {hint : InlayHint} {fault : Fault}
    (failed : store.mapHint context hint = .error fault) :
    ¬ store.shows context.asked wanted hint = true := by
  intro shown
  have whole : (store.mapHint context hint).isOk = _ := isOk_mapHint hint
  obtain ⟨placed, others⟩ := Bool.and_eq_true_iff.mp shown
  rw [failed, others, Bool.and_true] at whole
  cases here : store.toHost context.host context.language hint.position with
  | error fault =>
    simp only [Context.asked, here] at placed
    contradiction
  | ok place =>
    rw [here] at whole
    contradiction

/-- A list of hints comes back without those that nobody asked for and those that cannot be mapped. -/
theorem filterMap_mapHintItem (store : Store) (asks : context.hostRange.range? = some wanted)
    (hints : List InlayHint) :
    ∃ moved : List InlayHint,
      (hints.map Item.inlayHint).filterMap (store.mapHintItem context) = moved.map Item.inlayHint ∧
      List.Forall₂ (store.Moves context.asked) (hints.filter (store.shows context.asked wanted)) moved := by
  induction hints with
  | nil => exact ⟨[], rfl, .nil⟩
  | cons hint rest ih =>
    obtain ⟨moved, isMoved, others⟩ := ih
    cases ok : store.mapHint context hint with
    | error fault =>
      refine ⟨moved, ?_, ?_⟩
      · simpa [mapHintItem, ok] using isMoved
      · rwa [List.filter_cons_of_neg (not_shows_of_mapHint ok)]
    | ok first =>
      have isShown : store.shows context.asked wanted hint = _ := shows_of_mapHint ok
      have item : store.mapHintItem context (.inlayHint hint) =
          if wanted.covers first.position then some (.inlayHint first) else none := by
        simp only [mapHintItem, ok, Store.wanted, asks]
      -- the range is asked after everything in the hint was mapped
      cases covers : wanted.covers first.position with
      | true =>
        refine ⟨first :: moved, ?_, ?_⟩
        · rw [List.map_cons, List.filterMap_cons, item, if_pos covers, isMoved]
          rfl
        · rw [List.filter_cons_of_pos (isShown.trans covers)]
          exact .cons (moves_of_mapHint ok) others
      | false =>
        refine ⟨moved, ?_, ?_⟩
        · rw [List.map_cons, List.filterMap_cons, item, covers]
          exact isMoved
        · rwa [List.filter_cons_of_neg (by rw [isShown, covers]; simp)]

theorem bringBack_hints (proper : context.isRegular = true) (method : context.method = .inlayHint)
    (asks : context.hostRange.range? = some wanted) (hints : List InlayHint) :
    ∃ moved : List InlayHint,
      (store.bringBack context (.many (hints.map Item.inlayHint))).1 =
        .ok (.many (moved.map Item.inlayHint)) ∧
      List.Forall₂ (store.Moves context.asked) (hints.filter (store.shows context.asked wanted)) moved := by
  have fits : (Answer.many (hints.map Item.inlayHint)).suits context.method = true := by
    simp [method, Answer.suits, Answer.isRegular, Answer.items, Item.isHint, Item.suits]
  have listing : context.method ∈ Method.listing := by simp [method, Method.listing]
  have rule : store.mapItem? context = store.mapHintItem context := by simp only [mapItem?, method]
  obtain ⟨moved, isMoved, moves⟩ := filterMap_mapHintItem store asks hints
  exact ⟨moved, by rw [bringBack_many proper listing fits, rule, isMoved], moves⟩

/-- Hints are shown for the range that was asked for. Every language is asked for a range that takes in
all places of its chunks, and whatever hints it gives, those whose places come to lie in the range of
the host are shown there, in order, as the host is when they come. -/
theorem hints_shown_for_range {padding : Padding} {names : LanguageNames} {rules : Option (List Rule)}
    {history : List StoreStep} {store : Store}
    (reached : Reached apply Anything (fresh padding names rules) history store)
    {uri : String} (named : uri ≠ "") (languagesNamed : "" ∉ store.languages uri)
    {about : DocumentParams} {wanted : Range} (ranged : about.range = some wanted) (router : Router) :
    ∃ contexts entered,
      router.fanOut store uri .inlayHint (.document about) = (entered, .ok contexts) ∧
      contexts.map Context.language = store.languages uri ∧
      ∀ context ∈ contexts,
        (∃ document sent, store.get? uri context.language = some document ∧
          Alias.parse? context.aliasUri = some ⟨uri, context.language⟩ ∧
          context.params = .document
            { about with document := { uri := context.aliasUri }, range := some sent } ∧
          ∀ chunk ∈ document.chunks, ∀ place : Position,
            chunk.containsSynthetic place.line = true → 0 ≤ place.character →
              sent.covers place = true) ∧
        ∀ (later : Store) (hints : List InlayHint), ∃ moved : List InlayHint,
          (later.bringBack context (.many (hints.map Item.inlayHint))).1 =
            .ok (.many (moved.map Item.inlayHint)) ∧
          List.Forall₂ (later.Moves ⟨uri, context.language⟩)
            (hints.filter (later.shows ⟨uri, context.language⟩ wanted)) moved := by
  have asks : Router.Asks .inlayHint about := Or.inr ⟨rfl, by rw [ranged]; rfl⟩
  obtain ⟨contexts, entered, isEntered, enters⟩ :=
    Router.fanOut_enters reached rfl named asks languagesNamed router
  refine ⟨contexts, entered, isEntered, enters.inOrder, fun context member => ?_⟩
  have posed := enters.posed context member
  constructor
  · obtain ⟨document, held, _, params⟩ := posed.params
    obtain ⟨host, tracked, inHost⟩ := Option.bind_eq_some_iff.mp held
    have mapped := (reached_mapping reached rfl tracked).mapped _ document inHost
    refine ⟨document, Router.wholeRange document, held, posed.decodes, params, ?_⟩
    intro chunk inDocument place inside counted
    exact mapped.wholeRange_covers inDocument
      (reached_syntheticStart reached rfl held chunk inDocument) inside counted
  · intro later hints
    have hostRange : context.hostRange.range? = some wanted := by
      rw [posed.hostRange, Router.wantedRange, ranged]
      rfl
    have asked : context.asked = ⟨uri, context.language⟩ := by rw [Context.asked, posed.isHost]
    rw [← asked]
    exact bringBack_hints (posed.isRegular asks) posed.isMethod hostRange hints

/-- Of three hints the first lies above the range, the second at its last place, and the third behind
the chunk. -/
theorem hint_shown_at_end_of_range :
    let about : DocumentParams :=
      { type := "InlayHintParams", document := { uri := "h" }, range := some ⟨⟨2, 0⟩, ⟨2, 4⟩⟩ }
    let hint (line character : Int) : InlayHint := ⟨⟨line, character⟩, .other (.str "int"), none, []⟩
    let store := (fresh .compact .standard none).openHost "h" "```python\nx\ny\n```" none
    ∃ context entered,
      ({} : Router).fanOut store "h" .inlayHint (.document about) = (entered, .ok [context]) ∧
      ∃ moved, moved.position = ⟨2, 4⟩ ∧
        (store.bringBack context (.many ([hint 0 9, hint 1 4, hint 2 0].map Item.inlayHint))).1 =
          .ok (.many [.inlayHint moved]) := by
  intro about hint store
  have reached : Reached apply Anything (fresh .compact .standard none) [_] store :=
    .step .start (StoreStep.openHost "h" _ none) trivial
  have facts : (store.languages "h",
      [hint 0 9, hint 1 4, hint 2 0].map (store.shows ⟨"h", "python"⟩ ⟨⟨2, 0⟩, ⟨2, 4⟩⟩),
      store.toHost "h" "python" ⟨1, 4⟩) = (["python"], [false, true, false], .ok ⟨2, 4⟩) := by cbv
  simp only [Prod.mk.injEq, List.map_cons, List.map_nil, List.cons.injEq] at facts
  obtain ⟨languages, ⟨above, inside, behind, -⟩, place⟩ := facts
  have named : "h" ≠ "" := by decide
  obtain ⟨contexts, entered, isEntered, inOrder, each⟩ := hints_shown_for_range reached named
    (by rw [languages]; decide) (rfl : about.range = some _) {}
  rw [languages] at inOrder
  obtain ⟨context, isContext, isPython⟩ := List.map_eq_singleton_iff.mp inOrder
  subst isContext
  refine ⟨context, entered, isEntered, ?_⟩
  obtain ⟨moved, isMoved, moves⟩ := (each context List.mem_cons_self).2 store [hint 0 9, hint 1 4, hint 2 0]
  rw [isPython] at moves
  simp only [List.filter_cons, above, inside, behind, List.filter_nil, if_true, Bool.false_eq_true,
    if_false] at moves
  obtain ⟨first, rest, shown, nothing, isFirst⟩ := List.forall₂_cons_left_iff.mp moves
  rw [List.forall₂_nil_left_iff.mp nothing] at isFirst
  rw [isFirst] at isMoved
  exact ⟨first, Except.ok.inj (shown.position.symm.trans place), isMoved⟩

/-- A host without a name has no aliases, and nobody is asked. -/
theorem hints_of_nameless_host :
    let about : DocumentParams :=
      { type := "InlayHintParams", document := { uri := "" }, range := some ⟨⟨0, 0⟩, ⟨2, 0⟩⟩ }
    let store := (fresh .compact .standard none).openHost "" "```python\nx\n```" none
    store.languages "" = ["python"] ∧
      (({} : Router).fanOut store "" .inlayHint (.document about)).2 = .error .emptyAliasPart := by
  cbv

end Store

end LanguageBridge
