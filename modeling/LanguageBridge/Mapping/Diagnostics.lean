import LanguageBridge.Mapping.Hints
import LanguageBridge.Protocol.Diagnostic

namespace LanguageBridge

/-! Diagnostics that child servers publish, and the warnings for malformed regions. -/

namespace Store

def mapRelated (store : Store) :
    List RelatedInformation → Except Fault (List RelatedInformation)
  | [] => .ok []
  | related :: rest =>
    match store.mapLocation related.location with
    | .error fault => .error fault
    | .ok location =>
      (store.mapRelated rest).map ({ related with location := location } :: ·)

def mapDiagnostic (store : Store) (host language : String) (diagnostic : Diagnostic) :
    Except Fault Diagnostic := do
  let range ← store.mapRange host language diagnostic.range
  let related ← mapOptional store.mapRelated diagnostic.related
  .ok { diagnostic with range := range, related := related }

def mapDiagnostics (store : Store) (host language : String) (diagnostics : List Diagnostic) :
    List Diagnostic :=
  diagnostics.filterMap fun diagnostic => (store.mapDiagnostic host language diagnostic).toOption

/-- Diagnostics of an alias under its host and language; those of real documents are of no
concern. -/
def mapPublication? (store : Store) (uri : String) (diagnostics : List Diagnostic) :
    Option (Alias × List Diagnostic) :=
  (Alias.parse? uri).map fun source =>
    (source, store.mapDiagnostics source.host source.language diagnostics)

/-! ### Data of any shape -/

def mapRelatedValue (store : Store) (related : Value) : Except Fault Value :=
  related.changeElements fun information =>
    information.changePart "location" store.mapPlaceValue

def mapDiagnosticValue (store : Store) (host language : String) (diagnostic : Value) :
    Except Fault Value := do
  let ranged ← store.mapEditValue host language diagnostic
  ranged.changeFilledPart "relatedInformation" store.mapRelatedValue

def bringPublicationBack (store : Store) (uri : String) (published : Value) :
    Except Fault (Option (Alias × List Diagnostic)) :=
  match Alias.parse? uri with
  | none => .ok none
  | some source => do
      let items ← published.elements
      match Diagnostic.list? items with
      | some diagnostics => .ok (store.mapPublication? uri diagnostics)
      | none =>
        let kept ← keepMapped (store.mapDiagnosticValue source.host source.language)
          (some "message") items
        .ok (some (source, Diagnostic.listOf kept))

end Store

namespace MalformedRegion

def range (region : MalformedRegion) : Range :=
  ⟨⟨region.line, 0⟩, ⟨region.line + 1, 0⟩⟩

def subject (region : MalformedRegion) : String :=
  match region.language with
  | some language => if language = "" then "region" else "'" ++ language ++ "' region"
  | none => "region"

def diagnostic (region : MalformedRegion) : Diagnostic :=
  { range := region.range
    rest :=
      [("message", .str ("Skipped " ++ region.subject ++ ": " ++ region.reason)),
       ("severity", .int 2), ("source", .str "polyglot-lsp"), ("code", .str "malformed-region")] }

def checkedDiagnostic (region : MalformedRegion) : Except Fault Diagnostic := do
  let _ ← region.range.start.checked
  let _ ← region.range.stop.checked
  .ok region.diagnostic

end MalformedRegion

end LanguageBridge
