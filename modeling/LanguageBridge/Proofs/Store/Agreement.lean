import LanguageBridge.Proofs.Store.Coverage
import LanguageBridge.Routing.Router

namespace LanguageBridge

/-! Two ways to ask what is in a line of a host: the chunks of the host give its language, and the
document of a language has a counterpart for it or has none. An update may leave a document as it
is, yet the two never disagree. -/

namespace Store

variable {store settings : Store} {allowed : Store → StoreStep → Prop} {history : List StoreStep}
  {uri language : String}

section Reached

variable (reached : Reached apply allowed settings history store) (empty : settings.hosts = .empty)
include reached empty

theorem languageAt?_of_toSynthetic {place found : Position}
    (ok : store.toSynthetic uri language place = .ok found) :
    store.languageAt? uri place.line = some language := by
  obtain ⟨host, document, tracked, held, there⟩ := toSynthetic_ok_document ok
  have mapped := (reached_mapping reached empty tracked).mapped language document held
  obtain ⟨chunk, member, inside, _⟩ := (Document.toSynthetic_eq_ok mapped).mp there
  obtain ⟨own, isOwn, sameStart, sameEnd⟩ := (reached_inStep reached empty tracked).chunk held member
  rw [← sameStart, ← sameEnd] at inside
  exact (reached_languageAt? reached empty).mpr
    ⟨host, tracked, own, isOwn, Chunk.containsHost_iff.mpr inside⟩

theorem languageAt?_iff_toSynthetic (place : Position) :
    store.languageAt? uri place.line = some language ↔
      ∃ found, store.toSynthetic uri language place = .ok found := by
  constructor
  · intro here
    obtain ⟨found, ok, _⟩ := exists_toSynthetic reached empty here
    exact ⟨found, ok⟩
  · rintro ⟨found, ok⟩
    exact languageAt?_of_toSynthetic reached empty ok

/-- A line that has a language is never lost on the way to its document. -/
theorem route_eq_none_iff (router : Router) (position : Position) (method : Method)
    (params : Params) :
    (router.route store uri position method params).2 = .ok none ↔
      store.languageAt? uri position.line = none := by
  cases here : store.languageAt? uri position.line with
  | none => simp only [Router.route, here]
  | some language =>
    obtain ⟨place, found⟩ := (languageAt?_iff_toSynthetic reached empty _).mp here
    simp only [Router.route, here, found, reduceCtorEq, iff_false]
    split
    · simp
    · split
      · simp
      · rename_i outgoing _
        cases ((router.rememberCompletion method uri language).record method uri language
          outgoing .null).2 <;> simp [Except.map]

end Reached

theorem exists_get?_of_toSynthetic {place found : Position}
    (ok : store.toSynthetic uri language place = .ok found) :
    ∃ document, store.get? uri language = some document := by
  obtain ⟨host, document, tracked, held, _⟩ := toSynthetic_ok_document ok
  exact ⟨document, by simp only [get?, tracked, Option.bind_some, held]⟩

variable {padding : Padding} {names : LanguageNames} {rules : Option (List Rule)}

/-- In every store that can be reached, whatever ranges the updates were given, a line is in a
language exactly if the document of that language maps it. So no two languages map the same line,
and a place whose language is known is always routed. -/
theorem line_language_agrees_with_documents
    (reached : Reached apply Anything (fresh padding names rules) history store) (uri : String) :
    (∀ (line : Int) (language : String),
      store.languageAt? uri line = some language ↔
        ∃ document, store.get? uri language = some document ∧
          ∃ found, store.toSynthetic uri language ⟨line, 0⟩ = .ok found) ∧
    (∀ (place otherPlace found otherFound : Position) (language other : String),
      store.toSynthetic uri language place = .ok found →
        store.toSynthetic uri other otherPlace = .ok otherFound →
          place.line = otherPlace.line → language = other) ∧
    ∀ (router : Router) (position : Position) (method : Method) (params : Params)
      (language : String), store.languageAt? uri position.line = some language →
        (∃ found, store.toSynthetic uri language position = .ok found) ∧
          (router.route store uri position method params).2 ≠ .ok none := by
  refine ⟨?_, ?_, ?_⟩
  · intro line language
    refine (languageAt?_iff_toSynthetic reached rfl ⟨line, 0⟩).trans ?_
    constructor
    · rintro ⟨found, ok⟩
      obtain ⟨document, held⟩ := exists_get?_of_toSynthetic ok
      exact ⟨document, held, found, ok⟩
    · rintro ⟨_, _, mapped⟩
      exact mapped
  · intro place otherPlace found otherFound language other ok okOther same
    have here := languageAt?_of_toSynthetic reached rfl ok
    have there := languageAt?_of_toSynthetic reached rfl okOther
    rw [same, there] at here
    exact (Option.some.inj here).symm
  · intro router position method params language here
    refine ⟨(languageAt?_iff_toSynthetic reached rfl _).mp here, ?_⟩
    rw [ne_eq, route_eq_none_iff reached rfl, here]
    simp

/-- A language that goes and comes back further down, by updates that are all given wrong ranges.
Its document maps the line where it is now, and the document of the language above it does not. -/
theorem line_language_agrees_after_return :
    ∃ history store, Reached apply Anything (fresh .compact .standard none) history store ∧
      store.languageAt? "h" 5 = some "python" ∧
      (∃ document, store.get? "h" "python" = some document ∧
        ∃ found, store.toSynthetic "h" "python" ⟨5, 0⟩ = .ok found) ∧
      store.get? "h" "json" ≠ none ∧
      ¬ ∃ found, store.toSynthetic "h" "json" ⟨5, 0⟩ = .ok found := by
  let opening : StoreStep := .openHost "h" "```python\nx\n```" none
  let removal : StoreStep := .update "h" "x" (some ⟨9, 9⟩)
  let comeback : StoreStep := .update "h" "\n```json\n1\n```\n```python\nx\n```" (some ⟨9, 9⟩)
  have reached : Reached apply Anything (fresh .compact .standard none)
      [comeback, removal, opening]
      ((((fresh .compact .standard none).apply opening).apply removal).apply comeback) :=
    .step (.step (.step .start opening trivial) removal trivial) comeback trivial
  have here : languageAt?
      ((((fresh .compact .standard none).apply opening).apply removal).apply comeback) "h" 5 =
        some "python" := by cbv
  have known : (get?
      ((((fresh .compact .standard none).apply opening).apply removal).apply comeback) "h"
        "json").isSome = true := by cbv
  obtain ⟨agrees, single, -⟩ := line_language_agrees_with_documents reached "h"
  obtain ⟨document, held, found, ok⟩ := (agrees 5 "python").mp here
  refine ⟨_, _, reached, here, ⟨document, held, found, ok⟩, ?_, ?_⟩
  · exact Option.isSome_iff_ne_none.mp known
  · rintro ⟨other, okOther⟩
    exact absurd (single _ _ _ _ _ _ ok okOther rfl) (by decide)

end Store

end LanguageBridge
