import LanguageBridge.Protocol.Location

namespace LanguageBridge

/-! Problems in a document. -/

structure RelatedInformation where
  location : Location
  rest : Fields := []
deriving Repr, Inhabited

structure Diagnostic where
  range : Range
  related : Option (List RelatedInformation) := none
  rest : Fields := []
deriving Repr, Inhabited

namespace RelatedInformation

def ofValue? : Value → Option RelatedInformation
  | .record "DiagnosticRelatedInformation" fields =>
    ((Fields.get? fields "location").bind Location.ofValue?).map fun location =>
      ⟨location, Fields.without fields ["location"]⟩
  | _ => none

def list? (value : Value) : Option (List RelatedInformation) :=
  value.list?.bind fun items => items.mapM ofValue?

def toValue (related : RelatedInformation) : Value :=
  .record "DiagnosticRelatedInformation" (("location", related.location.toValue) :: related.rest)

end RelatedInformation

namespace Diagnostic

def ofValue? : Value → Option Diagnostic
  | .record "Diagnostic" fields =>
    (Fields.range? fields "range").map fun range =>
      let (related, others) := Fields.take fields "relatedInformation" RelatedInformation.list?
      ⟨range, related, Fields.without others ["range"]⟩
  | _ => none

def toValue (diagnostic : Diagnostic) : Value :=
  .record "Diagnostic" (("range", .range diagnostic.range) ::
    (Fields.optional "relatedInformation"
      (diagnostic.related.map fun related => .list (related.map RelatedInformation.toValue)) ++
      diagnostic.rest))

def isRegular (diagnostic : Diagnostic) : Bool :=
  (Fields.get? diagnostic.rest "relatedInformation").isNone

def list? (items : List Value) : Option (List Diagnostic) :=
  items.mapM fun item => (ofValue? item).filter isRegular

def listOf (items : List Value) : List Diagnostic :=
  items.filterMap ofValue?

end Diagnostic

end LanguageBridge
