import LanguageBridge.Proofs.Store.Agreement

namespace LanguageBridge

/-! With preserving padding a synthetic document has its chunks where the host has them, so that places
keep their lines on the way to the host and back. -/

/-! ### Where the chunks lie -/

/-- The lines above the next chunk are those of the host: none yet, or all up to the end of the chunk
before. -/
theorem Layout.below_preserve {hostLines : List String} {height : Nat} {previousEnd : Option Int}
    {chunks : List Chunk} (enclosed : ∀ chunk ∈ chunks, chunk.Enclosed hostLines.length)
    (apart : ChunksApart chunks) (level : (height : Int) = (previousEnd.map (· + 1)).getD 0)
    (ahead : ∀ chunk ∈ chunks, (height : Int) ≤ chunk.hostStart) :
    ∀ laid ∈ (below .preserve hostLines height previousEnd chunks).chunks,
      laid.syntheticStart = laid.hostStart := by
  induction chunks generalizing height previousEnd with
  | nil => simp [below]
  | cons chunk rest ih =>
    have bodyLength := linesBetween_length (enclosed chunk List.mem_cons_self)
    have above := ahead chunk List.mem_cons_self
    have gap : (height : Int) + Padding.preserve.gap previousEnd chunk = chunk.hostStart := by
      cases previousEnd with
      | none =>
        simp only [Option.map_none, Option.getD_none] at level
        simp only [Padding.gap]
        omega
      | some last =>
        simp only [Option.map_some, Option.getD_some] at level
        simp only [Padding.gap]
        omega
    obtain ⟨behind, restApart⟩ := List.pairwise_cons.mp apart
    simp only [Chunk.lineCount] at bodyLength
    intro laid member
    rw [below] at member
    rcases List.mem_cons.mp member with same | later
    · subst same
      simp only
      omega
    · refine ih (fun other known => enclosed other (List.mem_cons_of_mem _ known)) restApart ?_ ?_
        laid later
      · simp only [Option.map_some, Option.getD_some]
        omega
      · intro other known
        have := behind other known
        omega

/-- A document whose chunks lie where the host has them. -/
def Document.Aligned (document : Document) : Prop :=
  ∀ chunk ∈ document.chunks, chunk.syntheticStart = chunk.hostStart

namespace Document.Aligned

variable {document : Document} {place found : Position}

theorem toHost (aligned : document.Aligned) (mapped : document.Mapped)
    (ok : document.toHost place = .ok found) : found = place := by
  obtain ⟨chunk, member, _, rfl⟩ := (toHost_eq_ok mapped).mp ok
  rw [aligned chunk member, add_sub_cancel]

theorem toSynthetic (aligned : document.Aligned) (mapped : document.Mapped)
    (ok : document.toSynthetic place = .ok found) : found = place := by
  obtain ⟨chunk, member, _, rfl⟩ := (toSynthetic_eq_ok mapped).mp ok
  rw [aligned chunk member, add_sub_cancel]

end Document.Aligned

/-! ### Every place -/

namespace Store

variable {store settings : Store} {allowed : Store → StoreStep → Prop} {history : List StoreStep}
  {uri language : String}

section Reached

variable (reached : Reached apply allowed settings history store) (empty : settings.hosts = .empty)
include reached empty

theorem toHost_fault_of_reached {place : Position} {fault : Fault}
    (failed : store.toHost uri language place = .error fault) :
    fault = .positionOutOfRange language place.line := by
  unfold toHost at failed
  split at failed
  · rename_i document held
    obtain ⟨host, tracked, found⟩ := Option.bind_eq_some_iff.mp held
    rw [Document.toHost_error failed,
      ((reached_mapping reached empty tracked).named language document found).1]
  · cases failed
    rfl

theorem toSynthetic_fault_of_reached {place : Position} {fault : Fault}
    (failed : store.toSynthetic uri language place = .error fault) :
    fault = .noSyntheticRegion (some language) place.line := by
  unfold toSynthetic at failed
  split at failed
  · rename_i document held
    obtain ⟨host, tracked, found⟩ := Option.bind_eq_some_iff.mp held
    rw [Document.toSynthetic_error failed,
      ((reached_mapping reached empty tracked).named language document found).1]
  · cases failed
    rfl

variable (preserves : settings.padding = .preserve)
include preserves

theorem reached_aligned {document : Document} (found : store.get? uri language = some document) :
    document.Aligned := by
  refine reached_chunks reached empty ?_ found
  intro host current language
  rw [preserves]
  refine Layout.below_preserve (current.enclosed language) (current.apart language) rfl ?_
  intro chunk known
  have := (current.enclosed language chunk known).positive
  omega

theorem toSynthetic_of_preserve {place found : Position}
    (ok : store.toSynthetic uri language place = .ok found) : found = place := by
  obtain ⟨host, document, tracked, held, here⟩ := toSynthetic_ok_document ok
  have there : store.get? uri language = some document := by
    simp only [get?, tracked, Option.bind_some, held]
  exact (reached_aligned reached empty preserves there).toSynthetic
    ((reached_mapping reached empty tracked).mapped language document held) here

theorem toHost_of_preserve {place found : Position}
    (ok : store.toHost uri language place = .ok found) :
    found = place ∧ store.languageAt? uri place.line = some language := by
  obtain ⟨host, document, tracked, held, here⟩ := toHost_ok_document ok
  have grounded := reached_grounded reached empty tracked
  have there : store.get? uri language = some document := by
    simp only [get?, tracked, Option.bind_some, held]
  have kept := (reached_aligned reached empty preserves there).toHost
    (grounded.mapping.mapped language document held) here
  exact ⟨kept, kept ▸ languageAt?_of_toHost grounded tracked held here⟩

/-- The way to the host is open exactly in the chunks of the language, and changes nothing. -/
theorem toHost_preserve (place : Position) :
    store.toHost uri language place =
      if store.languageAt? uri place.line = some language then .ok place
      else .error (.positionOutOfRange language place.line) := by
  split
  · rename_i here
    obtain ⟨found, there, back⟩ := exists_toSynthetic reached empty here
    rwa [toSynthetic_of_preserve reached empty preserves there] at back
  · rename_i elsewhere
    cases result : store.toHost uri language place with
    | ok found => exact absurd (toHost_of_preserve reached empty preserves result).2 elsewhere
    | error fault => rw [toHost_fault_of_reached reached empty result]

theorem toSynthetic_preserve (place : Position) :
    store.toSynthetic uri language place =
      if store.languageAt? uri place.line = some language then .ok place
      else .error (.noSyntheticRegion (some language) place.line) := by
  split
  · rename_i here
    obtain ⟨found, there, _⟩ := exists_toSynthetic reached empty here
    rwa [toSynthetic_of_preserve reached empty preserves there] at there
  · rename_i elsewhere
    cases result : store.toSynthetic uri language place with
    | ok found => exact absurd (languageAt?_of_toSynthetic reached empty result) elsewhere
    | error fault => rw [toSynthetic_fault_of_reached reached empty result]

theorem mapRange_preserve {range mapped : Range} :
    store.mapRange uri language range = .ok mapped ↔
      mapped = range ∧ store.languageAt? uri range.start.line = some language ∧
        (store.languageAt? uri range.stop.line = some language ∨
          range.stop.character = 0 ∧ range.start.line < range.stop.line ∧
            store.languageAt? uri (range.stop.line - 1) = some language) := by
  constructor
  · intro ok
    obtain ⟨startOk, ends⟩ := mapRange_eq_ok ok
    obtain ⟨start, startHere⟩ := toHost_of_preserve reached empty preserves startOk
    rcases ends with stopOk | ⟨zero, below, _, last, lastOk, isStop⟩
    · obtain ⟨stop, stopHere⟩ := toHost_of_preserve reached empty preserves stopOk
      refine ⟨?_, startHere, Or.inl stopHere⟩
      obtain ⟨_, _⟩ := mapped
      exact congr (congrArg Range.mk start) stop
    · obtain ⟨isLast, lastHere⟩ := toHost_of_preserve reached empty preserves lastOk
      refine ⟨?_, startHere, Or.inr ⟨zero, below, lastHere⟩⟩
      -- one line up and one line down again
      have stop : mapped.stop = ⟨range.stop.line, range.stop.character⟩ := by
        rw [isStop, isLast, sub_add_cancel, zero]
      obtain ⟨_, _⟩ := mapped
      exact congr (congrArg Range.mk start) stop
  · rintro ⟨rfl, startHere, stopHere⟩
    have there (place : Position) : store.toHost uri language place = _ :=
      toHost_preserve reached empty preserves place
    simp only [mapRange, mapPosition, there, startHere, if_true]
    by_cases inside : store.languageAt? uri mapped.stop.line = some language
    · simp only [inside, if_true]
    · obtain ⟨zero, below, lastHere⟩ := stopHere.resolve_left inside
      have exclusive : ¬ (mapped.stop.character ≠ 0 ∨ mapped.stop.line ≤ mapped.start.line) := by
        omega
      simp only [inside, if_false, if_neg exclusive, lastHere, if_true, Except.map]
      rw [Int.sub_add_cancel, ← zero]

end Reached

variable {names : LanguageNames} {rules : Option (List Rule)}

/-- With preserving padding, in every store that can be reached, a place is the same in the host and in
the document of a language: chunks start at the same lines on both sides, the places in them lead to
themselves, and a range that can be mapped is mapped to itself, also if it ends right behind a chunk. -/
theorem preserve_keeps_places
    (reached : Reached apply Anything (fresh .preserve names rules) history store)
    (uri language : String) :
    (∀ place, store.toHost uri language place =
      if store.languageAt? uri place.line = some language then .ok place
      else .error (.positionOutOfRange language place.line)) ∧
    (∀ place, store.toSynthetic uri language place =
      if store.languageAt? uri place.line = some language then .ok place
      else .error (.noSyntheticRegion (some language) place.line)) ∧
    (∀ document, store.get? uri language = some document →
      ∀ chunk ∈ document.chunks, chunk.syntheticStart = chunk.hostStart) ∧
    ∀ range mapped, store.mapRange uri language range = .ok mapped ↔
      mapped = range ∧ store.languageAt? uri range.start.line = some language ∧
        (store.languageAt? uri range.stop.line = some language ∨
          range.stop.character = 0 ∧ range.start.line < range.stop.line ∧
            store.languageAt? uri (range.stop.line - 1) = some language) :=
  ⟨fun place => toHost_preserve reached rfl rfl place,
    fun place => toSynthetic_preserve reached rfl rfl place,
    fun _ found => reached_aligned reached rfl rfl found,
    fun _ _ => mapRange_preserve reached rfl rfl⟩

/-- Two languages without a line between the marker lines of their chunks, moved down by an update that
was given the wrong lines. A range from the first chunk of a language to the line behind its second one
is mapped to itself. -/
theorem preserve_keeps_places_behind_chunk :
    ∃ history store, Reached apply Anything (fresh .preserve .standard none) history store ∧
      store.toHost "h" "python" ⟨2, 7⟩ = .ok ⟨2, 7⟩ ∧
      store.toSynthetic "h" "python" ⟨8, 1⟩ = .ok ⟨8, 1⟩ ∧
      store.toHost "h" "python" ⟨5, 0⟩ = .error (.positionOutOfRange "python" 5) ∧
      store.languageAt? "h" 9 = none ∧
      store.mapRange "h" "python" ⟨⟨2, 1⟩, ⟨9, 0⟩⟩ = .ok ⟨⟨2, 1⟩, ⟨9, 0⟩⟩ := by
  let opening : StoreStep :=
    .openHost "h" "```python\nx\n```\n```json\n1\n```\n```python\ny\n```" none
  let edit : StoreStep :=
    .update "h" "\n```python\nx\n```\n```json\n1\n```\n```python\ny\n```" (some ⟨9, 9⟩)
  have reached : Reached apply Anything (fresh .preserve .standard none) [edit, opening]
      (((fresh .preserve .standard none).apply opening).apply edit) :=
    .step (.step .start opening trivial) edit trivial
  generalize isStore : ((fresh .preserve .standard none).apply opening).apply edit = store at reached
  have languages : (store.languageAt? "h" 2, store.languageAt? "h" 5, store.languageAt? "h" 8,
      store.languageAt? "h" 9) = (some "python", some "json", some "python", none) := by
    rw [← isStore]
    cbv
  obtain ⟨first, between, second, behind⟩ := by simpa only [Prod.mk.injEq] using languages
  obtain ⟨there, back, -, ranges⟩ := preserve_keeps_places reached "h" "python"
  refine ⟨_, _, reached, ?_, ?_, ?_, behind, (ranges _ _).mpr ⟨rfl, first, Or.inr ⟨rfl, by decide, second⟩⟩⟩
  · rw [there, if_pos first]
  · rw [back, if_pos second]
  · rw [there, if_neg (by rw [between]; decide)]

end Store

end LanguageBridge
