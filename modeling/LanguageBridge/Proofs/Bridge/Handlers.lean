import LanguageBridge.Proofs.Bridge.SoundTurns

namespace LanguageBridge

/-! Opening, editing and closing hosts: what the handler has in hand once the store has changed. -/

namespace Run

variable {confined : Prop} {run : Run} {task : Nat} {uri text : String}

/-- One host goes on in the store, before any child server hears of it. -/
theorem Sound.advance (sound : run.Sound confined) {later : Store} (proper : later.Proper)
    (advances : Store.Advances uri run.bridge.store later) :
    (run.setBridge { run.bridge with store := later }).Sound confined :=
  sound.setBridge (sound.bridge.advance proper advances) rfl (fun _ _ => id)
    fun _ _ _ _ _ _ _ => ⟨rfl, rfl⟩

theorem Settled.advance (settled : run.Settled) (unbound : run.Unbound task) {later : Store}
    {languages : List String} (advances : Store.Advances uri run.bridge.store later)
    (changed : ∀ language document, later.get? uri language = some document →
      run.bridge.store.get? uri language = some document ∨ language ∈ languages) :
    (run.setBridge { run.bridge with store := later }).Covers task uri languages := by
  have covers := settled.covers unbound uri languages
  intro wanted language document held
  by_cases same : wanted = uri
  · subst same
    rcases changed language document held with unchanged | inHand
    · exact covers wanted language document unchanged
    · exact Or.inr (Or.inr ⟨rfl, inHand⟩)
  · exact covers wanted language document (advances.others wanted language same ▸ held)

section Commands

variable (sound : run.Sound confined) (settled : run.Settled) (unbound : run.Unbound task)
include sound settled unbound

theorem Sound.openHost (free : ¬ run.Refers task) {languageId : Option String} (given : uri ≠ "")
    (untracked : run.bridge.store.hosts.get? uri = none)
    (languages : ∀ language ∈ (run.bridge.store.openHost uri text languageId).languages uri,
      language ≠ "") :
    OnTurn confined task (.sync uri ((run.bridge.store.openHost uri text languageId).languages uri))
      (run.setBridge
        { run.bridge with store := run.bridge.store.openHost uri text languageId }) := by
  have advances : Store.Advances uri run.bridge.store
      (run.bridge.store.openHost uri text languageId) := Store.openHost_advances untracked
  have covers := settled.advance unbound advances fun language document held =>
    Or.inr (Store.mem_languages_of_openHost held)
  have opened := sound.advance (Store.openHost_proper sound.bridge.store given languages) advances
  exact ⟨opened, unbound.1, trivial, covers, fun _ => free⟩

theorem Sound.editHost (free : ¬ run.Refers task) {changed : Option LineRange} (given : uri ≠ "")
    (languages : ∀ language ∈ (run.bridge.store.update uri text changed).languages uri,
      language ≠ "") :
    OnTurn confined task (.sync uri (Store.changedLanguages run.bridge.store
        (run.bridge.store.update uri text changed) uri).mergeSort)
      (run.setBridge { run.bridge with store := run.bridge.store.update uri text changed }) := by
  have advances := Store.update_advances run.bridge.store uri text changed
  have proper := Store.update_proper sound.bridge.store given languages
  have touched : ∀ language document,
      (run.bridge.store.update uri text changed).get? uri language = some document →
        run.bridge.store.get? uri language = some document ∨
          language ∈ (Store.changedLanguages run.bridge.store
            (run.bridge.store.update uri text changed) uri).mergeSort :=
    fun language document held =>
      (advances.same_or_changed proper held).imp_right List.mem_mergeSort.mpr
  have covers := settled.advance unbound advances touched
  exact ⟨sound.advance proper advances, unbound.1, trivial, covers, fun _ => free⟩

theorem Sound.closeHost (uri : String) :
    OnTurn confined task .other (run.setBridge (run.bridge.closeHost uri).1) ∧
      run.bridge.wire.Adds Effect.NoRequest (run.bridge.closeHost uri).1.wire := by
  obtain ⟨closed, isClosed, closes⟩ := sound.bridge.closeHost uri
  rw [isClosed]
  have closedSound : (run.setBridge closed).Sound confined :=
    sound.setBridge closes.sound closes.root (fun _ _ found => closes.current ▸ found)
      fun _ language _ _ _ => closes.states language
  refine ⟨⟨closedSound, unbound.1, trivial, ?_, False.elim⟩, closes.effects⟩
  intro wanted language document held
  simp only [Run.setBridge, closes.store, Store.get?_close] at held
  split at held
  · contradiction
  · rename_i different
    exact (settled.covers unbound "" [] wanted language document held).imp_left
      (closes.told wanted language document different)

end Commands

end Run

end LanguageBridge
