import LanguageBridge.Proofs.Bridge.InFlight
import LanguageBridge.Proofs.Store.Coverage

namespace LanguageBridge

/-! A request about a whole document is put to the languages of the host one after the other. It gets to
all of them unless there is one without a name, which has no alias; the languages before that one are
asked all the same, and nobody takes their requests off the table. -/

theorem Pending.Issues.get? {issued : List Context} {before after : Pending}
    (issues : before.Issues issued after) (id : Nat) :
    after.contexts.get? id =
      (issued.find? fun context => context.id = id).or (before.contexts.get? id) := by
  induction issued generalizing before with
  | nil =>
    cases issues
    rfl
  | cons context rest ih =>
    obtain ⟨number, later⟩ := issues
    rw [ih later, Table.get?_put]
    by_cases same : context.id = id
    · -- the numbers that follow are larger
      have absent : rest.find? (fun other => other.id = id) = none := by
        rw [List.find?_eq_none]
        intro other member
        have larger : before.next + 1 ≤ other.id := (later.gains.numbers other member).1
        simp only [decide_eq_true_eq]
        omega
      rw [absent, if_pos same.symm, List.find?_cons_of_pos (by simpa using same)]
      rfl
    · rw [if_neg (Ne.symm same), List.find?_cons_of_neg (by simpa using same)]

namespace Router

variable {store : Store} {host : String} {method : Method} {about : DocumentParams}
  {router : Router}

/-! ### Requests as child servers get them -/

/-- Parameters about a document as such a request has them. -/
def Asks (method : Method) (about : DocumentParams) : Prop :=
  method = .documentSymbol ∨ method = .inlayHint ∧ about.range.isSome = true

/-- Parameters about a host, put to one of its documents. -/
def readdressed (method : Method) (about : DocumentParams) (aliasUri : String) (document : Document) :
    DocumentParams :=
  { about with
    document := { uri := aliasUri }
    range := if method = .inlayHint then some (wholeRange document) else about.range }

/-- The host range that hints are wanted for. -/
def wantedRange (method : Method) (about : DocumentParams) : Value :=
  if method = .inlayHint then (about.range.map Value.range).getD .null else .null

theorem widened_eq (asks : Asks method about) (aliasUri : String) (document : Document) :
    widened method (.document about) aliasUri document =
      .ok (.document (readdressed method about aliasUri document), wantedRange method about) := by
  rcases asks with isSymbols | ⟨isHints, ranged⟩
  · subst isSymbols
    rfl
  · subst isHints
    obtain ⟨range, isRange⟩ := Option.isSome_iff_exists.mp ranged
    obtain ⟨type, identifier, position, _, rest⟩ := about
    subst isRange
    rfl

/-- A request about a whole host, put to one of its languages. -/
structure Posed (store : Store) (host : String) (method : Method) (about : DocumentParams)
    (context : Context) : Prop where
  isMethod : context.method = method
  isHost : context.host = host
  decodes : Alias.parse? context.aliasUri = some ⟨host, context.language⟩
  params : ∃ document, store.get? host context.language = some document ∧ document.chunks ≠ [] ∧
    context.params = .document (readdressed method about context.aliasUri document)
  hostRange : context.hostRange = wantedRange method about

theorem Posed.isRegular {context : Context} (posed : Posed store host method about context)
    (asks : Asks method about) : context.isRegular = true := by
  obtain ⟨document, _, _, isParams⟩ := posed.params
  simp only [Context.isRegular, isParams, posed.hostRange, wantedRange, Params.isAddressable,
    Bool.true_and]
  rcases asks with rfl | ⟨rfl, ranged⟩
  · rfl
  · obtain ⟨range, isRange⟩ := Option.isSome_iff_exists.mp ranged
    rw [isRange]
    rfl

/-! ### Asking languages one after the other -/

/-- Languages that have names and documents are all asked, in order, and then the others. -/
theorem fanOutOver_onward (named : host ≠ "") (asks : Asks method about) (languages : List String)
    (known : ∀ language ∈ languages, language ≠ "" ∧
      ∃ document, store.get? host language = some document ∧ document.chunks ≠ [])
    (router : Router) :
    ∃ contexts entered, router.pending.Issues contexts entered.pending ∧
      contexts.map Context.language = languages ∧
      (∀ context ∈ contexts, Posed store host method about context) ∧
      ∀ others, fanOutOver store host method (.document about) (languages ++ others) router =
        ((fanOutOver store host method (.document about) others entered).1,
          (fanOutOver store host method (.document about) others entered).2.map (contexts ++ ·)) := by
  -- each language is asked by the router that the one before has left
  induction languages generalizing router with
  | nil =>
    refine ⟨[], router, rfl, rfl, by simp, fun others => ?_⟩
    rw [List.nil_append]
    rcases fanOutOver store host method (.document about) others router with ⟨later, result⟩
    cases result <;> rfl
  | cons language rest ih =>
    obtain ⟨languageNamed, document, held, filled⟩ := known language List.mem_cons_self
    obtain ⟨aliasUri, encoded⟩ := Alias.exists_encode named languageNamed
    let context : Context := ⟨router.pending.next, method, host, aliasUri, language,
      .document (readdressed method about aliasUri document), wantedRange method about⟩
    let first : Router := { router with
      pending := ⟨router.pending.next + 1, router.pending.contexts.put context.id context⟩ }
    have recorded : router.record method host language
        (.document (readdressed method about aliasUri document)) (wantedRange method about) =
          (first, .ok context) := by
      simp only [record, Pending.record, encoded]
      rfl
    obtain ⟨contexts, entered, issues, isRest, posed, onward⟩ :=
      ih (fun other member => known other (List.mem_cons_of_mem language member)) first
    refine ⟨context :: contexts, entered, ⟨rfl, issues⟩, ?_, ?_, ?_⟩
    · rw [List.map_cons, isRest]
    · intro other member
      rcases List.mem_cons.mp member with isFirst | inRest
      · subst isFirst
        exact ⟨rfl, rfl, Alias.parse?_encode encoded, ⟨document, held, filled, rfl⟩, rfl⟩
      · exact posed other inRest
    · intro others
      simp only [List.cons_append, fanOutOver, held, filled, if_false, encoded, widened_eq asks,
        recorded, onward others]
      rcases fanOutOver store host method (.document about) others entered with ⟨later, result⟩
      cases result <;> rfl

theorem fanOutOver_named (named : host ≠ "") (asks : Asks method about) (languages : List String)
    (known : ∀ language ∈ languages, language ≠ "" ∧
      ∃ document, store.get? host language = some document ∧ document.chunks ≠ [])
    (router : Router) :
    ∃ contexts later,
      fanOutOver store host method (.document about) languages router = (later, .ok contexts) ∧
      router.pending.Issues contexts later.pending ∧ contexts.map Context.language = languages ∧
      ∀ context ∈ contexts, Posed store host method about context := by
  obtain ⟨contexts, later, issues, inOrder, posed, onward⟩ :=
    fanOutOver_onward named asks languages known router
  refine ⟨contexts, later, ?_, issues, inOrder, posed⟩
  simpa [fanOutOver, Except.map] using onward []

/-- A document without a language has no alias. -/
theorem fanOutOver_nameless {params : Params} {document : Document}
    (held : store.get? host "" = some document) (filled : document.chunks ≠ []) (rest : List String) :
    fanOutOver store host method params ("" :: rest) router = (router, .error .emptyAliasPart) := by
  simp only [fanOutOver, held, filled, if_false, Alias.encode, or_true, if_true]

/-! ### Asking all languages -/

/-- Requests that are on the table now and were not before, one for each of some languages. -/
structure Enters (store : Store) (host : String) (method : Method) (about : DocumentParams)
    (languages : List String) (contexts : List Context) (before after : Router) : Prop where
  inOrder : contexts.map Context.language = languages
  posed : ∀ context ∈ contexts, Posed store host method about context
  numbers : contexts.map Context.id = List.range' before.pending.next contexts.length
  next : after.pending.next = before.pending.next + contexts.length
  table : ∀ id, after.pending.contexts.get? id =
    (contexts.find? fun context => context.id = id).or (before.pending.contexts.get? id)
  memory : after.memory = before.memory

section Reached

variable {settings : Store} {allowed : Store → StoreStep → Prop} {history : List StoreStep}
  (reached : Reached Store.apply allowed settings history store) (empty : settings.hosts = .empty)
include reached empty

theorem fanOut_enters (named : host ≠ "") (asks : Asks method about)
    (languagesNamed : "" ∉ store.languages host) (router : Router) :
    ∃ contexts later, router.fanOut store host method (.document about) = (later, .ok contexts) ∧
      Enters store host method about (store.languages host) contexts router later := by
  have memory := router.fanOut_memory store host method (.document about)
  obtain ⟨contexts, later, isLater, issues, inOrder, posed⟩ :=
    fanOutOver_named named asks (store.languages host)
      (fun language known => ⟨fun nameless => languagesNamed (nameless ▸ known),
        Store.exists_document reached empty known⟩) router
  rw [fanOut, isLater] at memory
  exact ⟨contexts, later, isLater, inOrder, posed, issues.numbers.1, issues.numbers.2, issues.get?,
    memory⟩

/-- The languages before one without a name are asked. -/
theorem fanOut_stops (named : host ≠ "") (asks : Asks method about)
    (nameless : "" ∈ store.languages host) (router : Router) :
    ∃ before after contexts later, store.languages host = before ++ "" :: after ∧ "" ∉ before ∧
      router.fanOut store host method (.document about) = (later, .error .emptyAliasPart) ∧
      Enters store host method about before contexts router later := by
  have memory := router.fanOut_memory store host method (.document about)
  obtain ⟨before, after, isSplit, first⟩ := List.eq_append_cons_of_mem nameless
  obtain ⟨document, held, filled⟩ := Store.exists_document reached empty nameless
  obtain ⟨contexts, later, issues, inOrder, posed, onward⟩ :=
    fanOutOver_onward named asks before
      (fun language known => ⟨fun nameless => first (nameless ▸ known),
        Store.exists_document reached empty (isSplit ▸ List.mem_append_left _ known)⟩) router
  have stopped : fanOutOver store host method (.document about) (store.languages host) router =
      (later, .error .emptyAliasPart) := by
    rw [isSplit, onward, fanOutOver_nameless held filled]
    rfl
  rw [fanOut, stopped] at memory
  exact ⟨before, after, contexts, later, isSplit, first, stopped, inOrder, posed, issues.numbers.1,
    issues.numbers.2, issues.get?, memory⟩

end Reached

end Router

theorem Store.NamesAll.reached {settings store : Store} {allowed : Store → StoreStep → Prop}
    {history : List StoreStep} (namesAll : settings.NamesAll)
    (reached : Reached apply allowed settings history store) (empty : settings.hosts = .empty)
    (uri : String) : "" ∉ store.languages uri := by
  intro known
  cases tracked : store.hosts.get? uri with
  | none => simp [languages, tracked] at known
  | some host =>
    simp only [languages, tracked, Option.map_some, Option.getD_some] at known
    rw [(reached_mapping reached empty tracked).current.extraction] at known
    exact namesAll.extract _ _ "" known rfl

namespace Router

/-- A request about a whole document gets to every language of the host, or to those before one
without a name; which of the two depends on what the names stand for. -/
theorem fanOut_reaches_all_or_stops {padding : Padding} {names : LanguageNames}
    {rules : Option (List Rule)} {history : List StoreStep} {store : Store}
    (reached : Reached Store.apply Anything (.fresh padding names rules) history store)
    {host : String} (named : host ≠ "") {method : Method} {about : DocumentParams}
    (asks : Asks method about) (router : Router) :
    ("" ∉ store.languages host → ∃ contexts later,
      router.fanOut store host method (.document about) = (later, .ok contexts) ∧
      Enters store host method about (store.languages host) contexts router later) ∧
    ("" ∈ store.languages host → ∃ before after contexts later,
      store.languages host = before ++ "" :: after ∧ "" ∉ before ∧
      router.fanOut store host method (.document about) = (later, .error .emptyAliasPart) ∧
      Enters store host method about before contexts router later) ∧
    (names.Filled → (∀ given, rules = some given → ∀ rule ∈ given, rule.Named) →
      "" ∉ store.languages host) :=
  ⟨fun languagesNamed => fanOut_enters reached rfl named asks languagesNamed router,
    fun nameless => fanOut_stops reached rfl named asks nameless router,
    fun filled rulesNamed => Store.NamesAll.reached ⟨filled, rulesNamed⟩ reached rfl host⟩

theorem fanOut_reaches_r_and_python :
    let about : DocumentParams := { type := "DocumentSymbolParams", document := { uri := "h" } }
    let store := (Store.fresh .compact .standard none).openHost "h"
      "```r\nb\n```\n```python\na\n```\n```r\nc\n```" none
    store.languages "h" = ["r", "python"] ∧ ∃ contexts later,
      ({} : Router).fanOut store "h" .documentSymbol (.document about) = (later, .ok contexts) ∧
        Enters store "h" .documentSymbol about ["r", "python"] contexts {} later := by
  intro about store
  have reached : Reached Store.apply Anything (.fresh .compact .standard none) [_] store :=
    .step .start (StoreStep.openHost "h" _ none) trivial
  have languages : store.languages "h" = ["r", "python"] := by cbv
  have named : "h" ≠ "" := by decide
  have all := (fanOut_reaches_all_or_stops reached named (Or.inl rfl : Asks _ about) {}).1
  rw [languages] at all
  exact ⟨languages, all (by decide)⟩

/-- A short name for nothing is taken over from the options without a warning, and then python is
asked in vain. -/
theorem fanOut_stops_behind_python :
    let options : Value := .map [("languageAliases", .map [("x", .str "")])]
    let change := Config.standard.applyOptions options
    let about : DocumentParams := { type := "DocumentSymbolParams", document := { uri := "h" } }
    let store := (Store.fresh .compact change.config.names none).openHost "h"
      "```python\nx\n```\n```x\na\n```" none
    let asked := ({} : Router).fanOut store "h" .documentSymbol (.document about)
    change.fault = none ∧ change.warnings = [] ∧ store.languages "h" = ["python", ""] ∧
      asked.2 = .error .emptyAliasPart ∧
      asked.1.pending.contexts.values.map Context.language = ["python"] := by
  cbv

end Router

end LanguageBridge
