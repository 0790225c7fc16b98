import LanguageBridge.Mapping.Answers
import LanguageBridge.Proofs.Alias
import LanguageBridge.Proofs.Store.Coverage
import LanguageBridge.Routing.Router

namespace LanguageBridge

/-! A request about a place goes to the document that holds the place, and a place in that document is
brought back to the place that was asked about. -/

namespace Router

variable (router : Router) (method : Method) {store : Store} {host language aliasUri : String}
  {position place : Position} {params outgoing : Params}

theorem route_outside (outside : store.languageAt? host position.line = none) :
    router.route store host position method params = (router, .ok none) := by
  simp only [route, outside]

theorem route_inside (here : store.languageAt? host position.line = some language)
    (found : store.toSynthetic host language position = .ok place)
    (encoded : Alias.encode host language = .ok aliasUri)
    (readdressed : params.readdress aliasUri (some place) none = .ok outgoing) :
    ∃ entered : Router,
      router.route store host position method params =
        (entered, .ok (some
          { id := router.pending.next, method := method, host := host, aliasUri := aliasUri
            language := language, params := outgoing })) ∧
      entered.pending =
        { next := router.pending.next + 1
          contexts := router.pending.contexts.put router.pending.next
            { id := router.pending.next, method := method, host := host, aliasUri := aliasUri
              language := language, params := outgoing } } := by
  have remembered : (router.rememberCompletion method host language).pending = router.pending := by
    by_cases completes : method = .completion <;> simp [rememberCompletion, completes]
  refine ⟨((router.rememberCompletion method host language).record method host language outgoing
    .null).1, ?_, ?_⟩
  · simp only [route, here, found, encoded, readdressed]
    simp [record, Pending.record, encoded, remembered, Except.map]
  · simp [record, Pending.record, encoded, remembered]

end Router

namespace Params

theorem readdress_placed {about : DocumentParams} (placed : about.position.isSome = true)
    (aliasUri : String) (place : Position) :
    (Params.document about).readdress aliasUri (some place) none =
      .ok (.document { about with document := { uri := aliasUri }, position := some place }) := by
  simp [readdress, placed]

end Params

namespace Store

variable {store : Store} {uri language aliasUri : String} {position place : Position}

theorem mapLocation_point (named : Alias.parse? aliasUri = some ⟨uri, language⟩)
    (back : store.toHost uri language place = .ok position) :
    store.mapLocation ⟨aliasUri, ⟨place, place⟩⟩ = .ok ⟨uri, ⟨position, position⟩⟩ := by
  simp [mapLocation, named, mapRange, mapPosition, back, Except.map]

/-- Requests that are answered with places. -/
def locating : List Method :=
  [.definition, .typeDefinition, .implementation, .declaration, .references]

theorem bringBack_location {context : Context} (regular : context.isRegular = true)
    (locates : context.method ∈ locating) {location mapped : Location}
    (ok : store.mapLocation location = .ok mapped) :
    (store.bringBack context (.one (.location location))).1 = .ok (.one (.location mapped)) := by
  have rule : store.mapAnswer context (.one (.location location)) =
      store.mapLocations context (.one (.location location)) := by
    simp only [locating, List.mem_cons, List.not_mem_nil, or_false] at locates
    rcases locates with is | is | is | is | is <;> simp only [mapAnswer, is]
  have suits : Answer.isRegular (.one (.location location)) context.method = true := by
    simp only [locating, List.mem_cons, List.not_mem_nil, or_false] at locates
    rcases locates with is | is | is | is | is <;> rw [is] <;> rfl
  have mapsItem : (store.mapLocationItem context (.location location)).toOption =
      some (.location mapped) := by
    rw [mapLocationItem, ok]
    rfl
  simp [bringBack, suits, regular, mapBack, rule, mapLocations, Answer.items, mapsItem,
    Answer.restore]

variable {padding : Padding} {names : LanguageNames} {rules : Option (List Rule)}
  {history : List StoreStep}

/-- A request is routed if a chunk covers its place, and then to the document of the language there;
nothing about it changes but the document and the place. The place it gets in that document leads
back to the place that was asked about. -/
theorem routed_place_comes_back
    (reached : Reached apply Anything (fresh padding names rules) history store)
    (named : uri ≠ "") (filled : ∀ language ∈ store.languages uri, language ≠ "")
    (router : Router) (position : Position) (method : Method) (about : DocumentParams)
    (placed : about.position.isSome = true) :
    let routed := router.route store uri position method (.document about)
    (routed.2 = .ok none ↔ ¬ store.InChunk uri position.line) ∧
    (routed.2 = .ok none → routed.1 = router) ∧
    (store.InChunk uri position.line → ∃ context aliasUri place,
      routed.2 = .ok (some context) ∧
      routed.1.pending =
        ⟨router.pending.next + 1, router.pending.contexts.put router.pending.next context⟩ ∧
      context.id = router.pending.next ∧ context.method = method ∧ context.host = uri ∧
      store.languageAt? uri position.line = some context.language ∧
      context.params =
        .document { about with document := { uri := aliasUri }, position := some place } ∧
      Alias.parse? aliasUri = some ⟨uri, context.language⟩ ∧
      store.mapLocation ⟨aliasUri, ⟨place, place⟩⟩ = .ok ⟨uri, ⟨position, position⟩⟩ ∧
      (method ∈ locating →
        (store.bringBack context (.one (.location ⟨aliasUri, ⟨place, place⟩⟩))).1 =
          .ok (.one (.location ⟨uri, ⟨position, position⟩⟩)))) := by
  intro routed
  have covered : store.languageAt? uri position.line = none ↔ ¬ store.InChunk uri position.line :=
    reached_languageAt?_eq_none reached rfl
  cases here : store.languageAt? uri position.line with
  | none =>
    have unrouted : routed = (router, .ok none) := router.route_outside method here
    have outside := covered.mp here
    rw [unrouted]
    exact ⟨⟨fun _ => outside, fun _ => rfl⟩, fun _ => rfl, fun inside => absurd inside outside⟩
  | some language =>
    have inside : store.InChunk uri position.line := by
      by_contra outside
      rw [covered.mpr outside] at here
      contradiction
    obtain ⟨place, found, back⟩ := exists_toSynthetic reached rfl here
    obtain ⟨aliasUri, encoded⟩ := Alias.exists_encode named
      (filled language (languageAt?_mem_languages reached rfl here))
    have parsed := Alias.parse?_encode encoded
    have returned := mapLocation_point parsed back
    obtain ⟨entered, isRouted, recorded⟩ := router.route_inside method here found encoded
      (Params.readdress_placed placed aliasUri place)
    have same : routed = _ := isRouted
    rw [same]
    refine ⟨⟨by simp, fun outside => absurd inside outside⟩, by simp, fun _ => ?_⟩
    refine ⟨_, aliasUri, place, rfl, recorded, rfl, rfl, rfl, rfl, rfl, parsed, returned, ?_⟩
    intro locates
    exact bringBack_location rfl locates returned

/-- The second chunk of a language, in a host whose last edit came with a wrong range. The place is
the end of that chunk; a line further down nothing is routed. -/
theorem routed_place_comes_back_of_second_chunk :
    ∃ history store, Reached apply Anything (fresh .compact .standard none) history store ∧
      (∀ language ∈ store.languages "h", language ≠ "") ∧
      ∃ about : DocumentParams, about.position.isSome = true ∧
        (({} : Router).route store "h" ⟨8, 0⟩ .definition (.document about)).2 = .ok none ∧
        ¬ store.InChunk "h" 8 ∧ store.InChunk "h" 7 ∧
        ∃ context, (({} : Router).route store "h" ⟨7, 3⟩ .definition (.document about)).2 =
            .ok (some context) ∧
          (store.bringBack context
            (.one (.location ⟨"otter://h/python", ⟨⟨2, 3⟩, ⟨2, 3⟩⟩⟩))).1 =
              .ok (.one (.location ⟨"h", ⟨⟨7, 3⟩, ⟨7, 3⟩⟩⟩)) := by
  let opening : StoreStep :=
    .openHost "h" "```python\nx\n```\n```json\n1\n```\n```python\ny\n```" none
  let edit : StoreStep :=
    .update "h" "```python\nx\n```\n```json\n1\n```\n```python\n1+1\n```" (some ⟨0, 0⟩)
  have reached : Reached apply Anything (fresh .compact .standard none) [edit, opening]
      (((fresh .compact .standard none).apply opening).apply edit) :=
    .step (.step .start opening trivial) edit trivial
  have languages : (((fresh .compact .standard none).apply opening).apply edit).languages "h" =
      ["python", "json"] := by cbv
  have filled : ∀ language ∈
      (((fresh .compact .standard none).apply opening).apply edit).languages "h",
        language ≠ "" := by
    rw [languages]
    decide
  let about : DocumentParams :=
    { type := "DefinitionParams", document := { uri := "h" }, position := some ⟨7, 3⟩ }
  have below : (({} : Router).route (((fresh .compact .standard none).apply opening).apply edit) "h"
      ⟨8, 0⟩ .definition (.document about)).2 = .ok none := by cbv
  have found : (({} : Router).route (((fresh .compact .standard none).apply opening).apply edit) "h"
      ⟨7, 3⟩ .definition (.document about)).2.toOption.bind (·.map (·.params)) =
        some (.document
          { about with document := { uri := "otter://h/python" }, position := some ⟨2, 3⟩ }) := by
    cbv
  obtain ⟨outside, -, -⟩ :=
    routed_place_comes_back reached (by decide) filled {} ⟨8, 0⟩ .definition about rfl
  obtain ⟨unrouted, -, comesBack⟩ :=
    routed_place_comes_back reached (by decide) filled {} ⟨7, 3⟩ .definition about rfl
  have inside : InChunk (((fresh .compact .standard none).apply opening).apply edit) "h" 7 := by
    by_contra absent
    rw [unrouted.mpr absent] at found
    contradiction
  obtain ⟨context, aliasUri, place, routed, -, -, -, -, -, params, -, -, back⟩ := comesBack inside
  rw [routed] at found
  change some context.params = some _ at found
  rw [params] at found
  cases found
  exact ⟨_, _, reached, filled, about, rfl, below, outside.mp below, inside, context, routed,
    back (by decide)⟩

end Store

end LanguageBridge
