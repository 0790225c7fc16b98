import Mathlib.Computability.Language
import Mathlib.Data.List.Chain
import LanguageBridge.Proofs.Child.Log

namespace LanguageBridge

/-! What the clients of a child server are told about one document, as a word of notices. A document
has a lifetime from its opening to its closing, and a client may be in the middle of one. -/

inductive Notice where
  | opened (version : Int)
  | changed (version : Int)
  | closed
deriving DecidableEq, Repr

namespace Notice

open scoped Computability

def version? : Notice → Option Int
  | opened version | changed version => some version
  | closed => none

/-- Two notices that do not come with the same version. -/
def Differ (first second : Notice) : Prop :=
  ∀ version, first.version? = some version → second.version? ≠ some version

def opening : Language Notice :=
  {word | ∃ version, word = [opened version]}

def changing : Language Notice :=
  {word | ∃ version, word = [changed version]}

def closing : Language Notice :=
  {[closed]}

/-- Any number of lifetimes, one after the other. -/
def lifetimes : Language Notice :=
  (opening * changing∗ * closing)∗

/-- Notices as they may come. The version is that of the document while it is open. -/
inductive Told : List Notice → Option Int → Prop where
  | nothing : Told [] none
  | opened {word : List Notice} (told : Told word none) (version : Int) :
      Told (word ++ [opened version]) (some version)
  | changed {word : List Notice} {known version : Int} (told : Told word (some known))
      (other : known ≠ version) : Told (word ++ [changed version]) (some version)
  | closed {word : List Notice} {known : Int} (told : Told word (some known)) :
      Told (word ++ [closed]) none

/-- While the document is open, its lifetime wants its closing and no more. -/
def Midway (word : List Notice) : Option Int → Prop
  | none => word ∈ lifetimes
  | some _ => ∃ past ∈ lifetimes, ∃ present ∈ opening * changing∗, past ++ present = word

theorem append_mem_kstar {language : Language Notice} {past next : List Notice}
    (isPast : past ∈ language∗) (isNext : next ∈ language) : past ++ next ∈ language∗ :=
  Set.mem_of_mem_of_subset (Language.append_mem_mul isPast isNext) (kstar_mul_le_kstar (a := language))

namespace Told

variable {word : List Notice} {standing : Option Int}

theorem standing_eq (told : Told word standing) : standing = word.getLast?.bind version? := by
  cases told <;> simp [version?]

theorem mem_lifetimes (told : Told word standing) : Midway word standing := by
  induction told with
  | nothing => exact Language.nil_mem_kstar _
  | opened told version ih =>
    have opens : [.opened version] ∈ opening := ⟨version, rfl⟩
    exact ⟨_, ih, _, Language.append_mem_mul opens (Language.nil_mem_kstar _), rfl⟩
  | @changed word known version told other ih =>
    obtain ⟨past, isPast, present, isPresent, rfl⟩ := ih
    obtain ⟨start, isStart, changes, isChanges, rfl⟩ := Language.mem_mul.mp isPresent
    have change : [.changed version] ∈ changing := ⟨version, rfl⟩
    refine ⟨past, isPast, _, Language.append_mem_mul isStart (append_mem_kstar isChanges change),
      ?_⟩
    simp
  | closed told ih =>
    obtain ⟨past, isPast, present, isPresent, rfl⟩ := ih
    have closes : [.closed] ∈ closing := rfl
    have whole := append_mem_kstar isPast (Language.append_mem_mul isPresent closes)
    rwa [← List.append_assoc] at whole

theorem exists_rest (told : Told word standing) : ∃ rest, word ++ rest ∈ lifetimes := by
  cases standing with
  | none =>
    refine ⟨[], ?_⟩
    rw [List.append_nil]
    exact told.mem_lifetimes
  | some known => exact ⟨[.closed], told.closed.mem_lifetimes⟩

theorem differ (told : Told word standing) : word.IsChain Differ := by
  induction told with
  | nothing => simp
  | opened told version ih =>
    refine ih.append (.singleton _) ?_
    intro last isLast next isNext known hasVersion
    have closedBefore := told.standing_eq
    simp [Option.mem_def.mp isLast, hasVersion] at closedBefore
  | @changed word known version told other ih =>
    refine ih.append (.singleton _) ?_
    intro last isLast next isNext earlier hasVersion
    have openBefore := told.standing_eq
    simp only [Option.mem_def.mp isLast, Option.bind_some, hasVersion] at openBefore
    cases isNext
    cases openBefore
    simpa [version?] using Ne.symm other
  | closed told ih =>
    refine ih.append (.singleton _) ?_
    intro last isLast next isNext known hasVersion
    cases isNext
    simp [version?]

/-- Only a notice with a version leaves the document open. -/
theorem isSome_iff (told : Told word standing) :
    standing.isSome = true ↔ ∃ notice, word.getLast? = some notice ∧ notice ≠ .closed := by
  rw [told.standing_eq]
  cases word.getLast? with
  | none => simp
  | some notice => cases notice <;> simp [version?]

end Told

end Notice

/-! ### Reading notices off the wire -/

def ChildMessage.notice? (aliasUri : String) : ChildMessage → Option Notice
  | didOpen opened _ version _ => if opened = aliasUri then some (.opened version) else none
  | didChange changed version _ => if changed = aliasUri then some (.changed version) else none
  | didClose closed => if closed = aliasUri then some .closed else none
  | _ => none

def Effect.notice? (language : String) (client : Nat) (aliasUri : String) : Effect → Option Notice
  | sent toLanguage toClient message =>
    if toLanguage = language ∧ toClient = client then message.notice? aliasUri else none
  | _ => none

/-- What a client has been told about a document, in order. -/
def notices (language : String) (client : Nat) (aliasUri : String) (effects : List Effect) :
    List Notice :=
  effects.filterMap (Effect.notice? language client aliasUri)

theorem Effect.Quiet.notice? {effect : Effect} (quiet : effect.Quiet) (language : String)
    (client : Nat) (aliasUri : String) : effect.notice? language client aliasUri = none := by
  cases effect with
  | sent toLanguage toClient message =>
    cases message <;> first | contradiction | simp [Effect.notice?, ChildMessage.notice?]
  | _ => rfl

theorem Wire.Adds.notices_eq {before after : Wire} (adds : before.Adds Effect.Quiet after)
    (language : String) (client : Nat) (aliasUri : String) :
    notices language client aliasUri after.effects =
      notices language client aliasUri before.effects := by
  obtain ⟨more, same, quiet⟩ := adds
  have none : more.filterMap (Effect.notice? language client aliasUri) = [] :=
    List.filterMap_eq_nil_iff.mpr fun effect member => (quiet effect member).notice? _ _ _
  rw [notices, same, List.filterMap_append, none, List.append_nil]
  rfl

/-- A client that there has not been has been told nothing. -/
theorem notices_of_below {effects : List Effect} {clients client : Nat}
    (below : ∀ effect ∈ effects, effect.Below clients) (fresh : clients ≤ client)
    (language aliasUri : String) : notices language client aliasUri effects = [] := by
  refine List.filterMap_eq_nil_iff.mpr fun effect member => ?_
  have bound := below effect member
  cases effect with
  | sent toLanguage toClient message =>
    have less : toClient < clients := bound
    simp [Effect.notice?, show toClient ≠ client by omega]
  | _ => rfl

end LanguageBridge
