import LanguageBridge.Proofs.Execution
import LanguageBridge.Proofs.Store.Rebuilding

namespace LanguageBridge

/-! Runs of a store. Hosts are opened, updated, rebuilt and closed in any order; what every step
keeps is true of every store that can be reached. -/

inductive StoreStep where
  | openHost (uri text : String) (languageId : Option String)
  | update (uri text : String) (changed : Option LineRange)
  | rebuild (uri language : String)
  | close (uri : String)
deriving DecidableEq, Repr

namespace Store

def fresh (padding : Padding) (names : LanguageNames) (rules : Option (List Rule)) : Store :=
  { padding := padding, names := names, rules := rules }

/-- Does one step. A host that is not tracked cannot be rebuilt, and nothing changes then. -/
def apply (store : Store) (step : StoreStep) : Store :=
  match step with
  | .openHost uri text languageId => store.openHost uri text languageId
  | .update uri text changed => store.update uri text changed
  | .rebuild uri language => (store.rebuild uri language).toOption.getD store
  | .close uri => store.close uri

/-- The text and the language id that a host was last given; none if it is not open. -/
def recorded : List StoreStep → String → Option (String × Option String)
  | [], _ => none
  | .openHost uri text languageId :: past, wanted =>
    if wanted = uri then some (text, languageId) else recorded past wanted
  | .update uri text _ :: past, wanted =>
    if wanted = uri then some (text, (recorded past uri).bind Prod.snd) else recorded past wanted
  | .rebuild _ _ :: past, wanted => recorded past wanted
  | .close uri :: past, wanted => if wanted = uri then none else recorded past wanted

/-! ### What a step does to a host -/

variable {store : Store}

def bareHost (store : Store) (text : String) (languageId : Option String) : Host :=
  { text := text
    lines := Text.splitLines text
    extraction := store.extract text languageId
    languageId := languageId }

def openedHost (store : Store) (uri text : String) (languageId : Option String) : Host :=
  (store.bareHost text languageId).rebuildAll store.padding uri
    (store.extract text languageId).languages

/-- A host with a new text, before its documents are rebuilt. -/
def retexted (store : Store) (old : Host) (text : String) : Host :=
  { old with
    text := text
    lines := Text.splitLines text
    extraction := store.extract text old.languageId }

def updatedHost (store : Store) (uri : String) (old : Host) (text : String)
    (changed : Option LineRange) : Host :=
  (store.retexted old text).rebuildAll store.padding uri
    (staleLanguages changed old (store.extract text old.languageId))

/-- How a step changes the hosts: one of them is put in, or taken out, or nothing is done. -/
theorem apply_cases (store : Store) (step : StoreStep) :
    (∃ uri text languageId,
      store.apply step =
        { store with hosts := store.hosts.put uri (store.openedHost uri text languageId) }) ∨
    (∃ uri old text changed, step = .update uri text changed ∧ store.hosts.get? uri = some old ∧
      store.apply step =
        { store with hosts := store.hosts.put uri (store.updatedHost uri old text changed) }) ∨
    (∃ uri old language, store.hosts.get? uri = some old ∧
      store.apply step =
        { store with hosts := store.hosts.put uri (old.rebuild store.padding uri language) }) ∨
    (∃ uri, store.apply step = { store with hosts := store.hosts.erase uri }) ∨
    store.apply step = store := by
  cases step with
  | openHost uri text languageId => exact Or.inl ⟨uri, text, languageId, rfl⟩
  | update uri text changed =>
    cases found : store.hosts.get? uri with
    | none =>
      refine Or.inl ⟨uri, text, none, ?_⟩
      simp only [apply, update, found]
      rfl
    | some old =>
      refine Or.inr (Or.inl ⟨uri, old, text, changed, rfl, found, ?_⟩)
      simp only [apply, update, found]
      rfl
  | rebuild uri language =>
    cases found : store.hosts.get? uri with
    | none =>
      refine Or.inr (Or.inr (Or.inr (Or.inr ?_)))
      simp only [apply, rebuild, found]
      rfl
    | some old =>
      refine Or.inr (Or.inr (Or.inl ⟨uri, old, language, found, ?_⟩))
      simp only [apply, rebuild, found]
      rfl
  | close uri => exact Or.inr (Or.inr (Or.inr (Or.inl ⟨uri, rfl⟩)))

/-- Two stores that place and extract in the same way. -/
structure SameSettings (start store : Store) : Prop where
  padding : store.padding = start.padding
  names : store.names = start.names
  rules : store.rules = start.rules

theorem SameSettings.symm {start store : Store} (settings : SameSettings start store) :
    SameSettings store start :=
  ⟨settings.padding.symm, settings.names.symm, settings.rules.symm⟩

theorem SameSettings.extract {start store : Store} (settings : SameSettings start store)
    (text : String) (languageId : Option String) :
    store.extract text languageId = start.extract text languageId := by
  simp only [Store.extract, Store.rulesFor, settings.names, settings.rules]

variable {allowed : Store → StoreStep → Prop} {start : Store} {history : List StoreStep}

theorem reached_settings (reached : Reached apply allowed start history store) :
    SameSettings start store := by
  refine reached.invariant (SameSettings start) ⟨rfl, rfl, rfl⟩ ?_
  intro store step _ same
  rcases apply_cases store step with ⟨_, _, _, next⟩ | ⟨_, _, _, _, _, _, next⟩ |
      ⟨_, _, _, _, next⟩ | ⟨_, next⟩ | next <;>
    rw [next] <;> exact ⟨same.padding, same.names, same.rules⟩

/-- A property of single hosts holds in every reached store if opened hosts have it and updating and
rebuilding keep it. -/
theorem reached_hosts (reached : Reached apply allowed start history store)
    (empty : start.hosts = .empty) (keeps : String → Host → Prop)
    (opened : ∀ store, SameSettings start store → ∀ uri text languageId,
      keeps uri (store.openedHost uri text languageId))
    (updated : ∀ store, SameSettings start store → ∀ uri old text changed,
      allowed store (.update uri text changed) → store.hosts.get? uri = some old →
        keeps uri old → keeps uri (store.updatedHost uri old text changed))
    (rebuilt : ∀ store, SameSettings start store → ∀ uri old language,
      keeps uri old → keeps uri (old.rebuild store.padding uri language))
    {uri : String} {host : Host} (found : store.hosts.get? uri = some host) : keeps uri host := by
  induction reached generalizing uri host with
  | start =>
    rw [empty] at found
    cases found
  | @step history store before step permitted ih =>
    have settings := reached_settings before
    have put : ∀ changedUri changedHost, keeps changedUri changedHost →
        (store.hosts.put changedUri changedHost).get? uri = some host → keeps uri host := by
      intro changedUri changedHost kept found
      rcases Table.of_get?_put found with ⟨rfl, rfl⟩ | ⟨_, old⟩
      · exact kept
      · exact ih old
    rcases apply_cases store step with ⟨changedUri, text, languageId, next⟩ |
        ⟨changedUri, old, text, changed, same, known, next⟩ |
        ⟨changedUri, old, language, known, next⟩ | ⟨closed, next⟩ | next
    · rw [next] at found
      exact put _ _ (opened store settings changedUri text languageId) found
    · subst same
      rw [next] at found
      exact put _ _
        (updated store settings changedUri old text changed permitted known (ih known)) found
    · rw [next] at found
      exact put _ _ (rebuilt store settings changedUri old language (ih known)) found
    · rw [next] at found
      exact ih (Table.of_get?_erase found).2
    · rw [next] at found
      exact ih found

theorem reached_recorded (reached : Reached apply allowed start history store)
    (empty : start.hosts = .empty) (uri : String) :
    (store.hosts.get? uri).map (fun host => (host.text, host.languageId)) =
      recorded history uri := by
  induction reached generalizing uri with
  | start =>
    rw [empty]
    rfl
  | @step history store before step permitted ih =>
    cases step with
    | openHost changed text languageId =>
      simp only [apply, openHost, Table.get?_put, Store.recorded]
      split
      · simp
      · exact ih uri
    | update changed text range =>
      simp only [apply, Store.recorded, ← ih changed, update]
      cases store.hosts.get? changed with
      | none =>
        simp only [openHost, Table.get?_put]
        split
        · simp
        · exact ih uri
      | some old =>
        simp only [Table.get?_put]
        split
        · simp
        · exact ih uri
    | rebuild changed language =>
      simp only [apply, Store.recorded, rebuild]
      cases found : store.hosts.get? changed with
      | none => exact ih uri
      | some old =>
        simp only [Except.toOption, Option.getD_some, Table.get?_put]
        split
        · rename_i same
          rw [← ih uri, same, found]
          rfl
        · exact ih uri
    | close changed =>
      simp only [apply, close, Table.get?_erase, Store.recorded]
      split
      · rfl
      · exact ih uri

end Store

end LanguageBridge
