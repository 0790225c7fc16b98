import LanguageBridge.Child.Wire

namespace LanguageBridge

/-! What a child server knows about a document, read off what was sent to it. -/

namespace ChildMessage

/-- What is known about a document after a message, as version and text, while it is open. -/
def tell (aliasUri : String) (known : Option (Int × String)) : ChildMessage → Option (Int × String)
  | didOpen opened _ version text => if opened = aliasUri then some (version, text) else known
  | didChange changed version text =>
    if changed = aliasUri then known.map fun _ => (version, text) else known
  | didClose closed => if closed = aliasUri then none else known
  | _ => known

def isNotice : ChildMessage → Bool
  | didOpen _ _ _ _ | didChange _ _ _ | didClose _ => true
  | _ => false

def isRequest : ChildMessage → Bool
  | request _ _ => true
  | _ => false

def isStart : ChildMessage → Bool
  | create _ | spawn _ => true
  | _ => false

theorem tell_of_not_notice {message : ChildMessage} (quiet : message.isNotice = false)
    (aliasUri : String) (known : Option (Int × String)) : message.tell aliasUri known = known := by
  cases message <;> first | rfl | contradiction

end ChildMessage

namespace Effect

/-- The same for all that can be seen: a message counts if it goes to this client. -/
def tell (language : String) (client : Nat) (aliasUri : String) (known : Option (Int × String)) :
    Effect → Option (Int × String)
  | sent toLanguage toClient message =>
    if toLanguage = language ∧ toClient = client then message.tell aliasUri known else known
  | _ => known

def Quiet : Effect → Prop
  | sent _ _ message => message.isNotice = false
  | _ => True

/-- Nothing is said about a document, and nothing is asked. -/
def Plain : Effect → Prop
  | sent _ _ message => message.isNotice = false ∧ message.isRequest = false
  | _ => True

/-- What passes while a server that was spawned is brought up or let go. -/
def Steering : Effect → Prop
  | sent _ _ message =>
    message.isNotice = false ∧ message.isRequest = false ∧ message.isStart = false
  | logged _ _ => True
  | _ => False

def NoRequest : Effect → Prop
  | sent _ _ message => message.isRequest = false
  | _ => True

def Silent : Effect → Prop
  | sent _ _ _ => False
  | _ => True

/-- A message goes to one of the first clients. -/
def Below (clients : Nat) : Effect → Prop
  | sent _ client _ => client < clients
  | _ => True

variable {effect : Effect}

theorem Plain.quiet (plain : effect.Plain) : effect.Quiet := by
  cases effect <;> first | exact plain.1 | trivial

theorem Steering.plain (steering : effect.Steering) : effect.Plain := by
  cases effect <;> first | exact ⟨steering.1, steering.2.1⟩ | trivial

theorem Steering.quiet (steering : effect.Steering) : effect.Quiet :=
  steering.plain.quiet

theorem Plain.noRequest (plain : effect.Plain) : effect.NoRequest := by
  cases effect <;> first | exact plain.2 | trivial

theorem Silent.quiet (silent : effect.Silent) : effect.Quiet := by
  cases effect <;> first | exact silent.elim | trivial

theorem Silent.plain (silent : effect.Silent) : effect.Plain := by
  cases effect <;> first | exact silent.elim | trivial

theorem Silent.noRequest (silent : effect.Silent) : effect.NoRequest := by
  cases effect <;> first | exact silent.elim | trivial

theorem Silent.below (silent : effect.Silent) (clients : Nat) :
    effect.Below clients := by
  cases effect <;> first | exact silent.elim | trivial

theorem Below.mono {fewer more : Nat} (below : effect.Below fewer) (le : fewer ≤ more) :
    effect.Below more := by
  cases effect <;> first | exact Nat.lt_of_lt_of_le below le | trivial

theorem tell_of_quiet (quiet : effect.Quiet) (language : String) (client : Nat)
    (aliasUri : String) (known : Option (Int × String)) :
    effect.tell language client aliasUri known = known := by
  cases effect with
  | sent toLanguage toClient message =>
    simp only [tell, ChildMessage.tell_of_not_notice quiet, ite_self]
  | _ => rfl

end Effect

/-- What a client has been told about a document that it has open. -/
def shown (language : String) (client : Nat) (aliasUri : String) (effects : List Effect) :
    Option (Int × String) :=
  effects.foldl (fun known effect => effect.tell language client aliasUri known) none

theorem shown_concat (language : String) (client : Nat) (aliasUri : String)
    (effects : List Effect) (effect : Effect) :
    shown language client aliasUri (effects ++ [effect]) =
      effect.tell language client aliasUri (shown language client aliasUri effects) := by
  rw [shown, List.foldl_append]
  rfl

/-- What says nothing to a client about a document changes nothing. -/
theorem shown_append {language aliasUri : String} {client : Nat} {effects more : List Effect}
    (untold : ∀ effect ∈ more, ∀ known, effect.tell language client aliasUri known = known) :
    shown language client aliasUri (effects ++ more) = shown language client aliasUri effects := by
  induction more generalizing effects with
  | nil => rw [List.append_nil]
  | cons effect rest ih =>
    rw [List.append_cons, ih fun other member => untold other (List.mem_cons_of_mem _ member),
      shown_concat, untold effect List.mem_cons_self]

theorem shown_append_quiet {effects more : List Effect} (quiet : ∀ effect ∈ more, effect.Quiet)
    (language : String) (client : Nat) (aliasUri : String) :
    shown language client aliasUri (effects ++ more) = shown language client aliasUri effects :=
  shown_append fun effect member => Effect.tell_of_quiet (quiet effect member) _ _ _

theorem shown_of_below {effects : List Effect} {clients client : Nat}
    (below : ∀ effect ∈ effects, effect.Below clients) (fresh : clients ≤ client)
    (language aliasUri : String) : shown language client aliasUri effects = none := by
  rw [← List.nil_append effects]
  refine shown_append fun effect member known => ?_
  have bound := below effect member
  cases effect with
  | sent toLanguage toClient message =>
    have less : toClient < clients := bound
    rw [Effect.tell, if_neg (by omega)]
  | _ => rfl

/-! ### What a wire gains -/

theorem Wire.take_unseen (wire : Wire) (peer : Peer) (call : Call) :
    (wire.take peer call).2.effects = wire.effects ∧
      (wire.take peer call).2.clients = wire.clients := by
  unfold Wire.take
  split <;> exact ⟨rfl, rfl⟩

/-- A wire on which more has been seen, all of it of one kind. -/
def Wire.Adds (kind : Effect → Prop) (before after : Wire) : Prop :=
  ∃ more, after.effects = before.effects ++ more ∧ ∀ effect ∈ more, kind effect

namespace Wire.Adds

variable {kind other : Effect → Prop} {before middle after : Wire}

theorem refl (wire : Wire) : wire.Adds kind wire :=
  ⟨[], (List.append_nil _).symm, by simp⟩

theorem trans (first : before.Adds kind middle) (second : middle.Adds kind after) :
    before.Adds kind after := by
  obtain ⟨firstMore, firstSame, firstKind⟩ := first
  obtain ⟨secondMore, secondSame, secondKind⟩ := second
  refine ⟨firstMore ++ secondMore, by rw [secondSame, firstSame, List.append_assoc], ?_⟩
  intro effect member
  rcases List.mem_append.mp member with inFirst | inSecond
  · exact firstKind effect inFirst
  · exact secondKind effect inSecond

theorem mono (weaker : ∀ effect, kind effect → other effect) (adds : before.Adds kind after) :
    before.Adds other after := by
  obtain ⟨more, same, all⟩ := adds
  exact ⟨more, same, fun effect member => weaker effect (all effect member)⟩

theorem emit (wire : Wire) {effect : Effect} (fits : kind effect) :
    wire.Adds kind (wire.emit effect) :=
  ⟨[effect], rfl, by simpa using fits⟩

theorem of_effects (same : after.effects = before.effects) : before.Adds kind after :=
  ⟨[], by rw [same, List.append_nil], by simp⟩

theorem since (adds : before.Adds kind after) {sent later : List Effect}
    (split : after.effects = sent ++ later) (recent : before.effects.length ≤ sent.length) :
    ∀ effect ∈ later, kind effect := by
  obtain ⟨more, same, all⟩ := adds
  intro effect member
  refine all effect ?_
  rcases List.append_eq_append_iff.mp (same.symm.trans split) with ⟨between, _, isMore⟩ |
      ⟨between, isBefore, isLater⟩
  · rw [isMore]
    exact List.mem_append_right between member
  · have none : between = [] := by
      rw [isBefore, List.length_append] at recent
      exact List.length_eq_zero_iff.mp (by omega)
    rw [isLater, none, List.nil_append] at member
    exact member

theorem shown_eq (adds : before.Adds Effect.Quiet after) (language : String) (client : Nat)
    (aliasUri : String) :
    shown language client aliasUri after.effects =
      shown language client aliasUri before.effects := by
  obtain ⟨more, same, quiet⟩ := adds
  rw [same, shown_append_quiet quiet]

end Wire.Adds

end LanguageBridge
