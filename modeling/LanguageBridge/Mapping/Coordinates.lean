import LanguageBridge.Alias
import LanguageBridge.Protocol.Edit
import LanguageBridge.Store

namespace LanguageBridge

/-! Places in synthetic documents as places in their hosts. -/

namespace Store

def mapPosition (store : Store) (host language : String) (position : Position) :
    Except Fault Position :=
  store.toHost host language position

/-- A range may end at the start of the line after a chunk; that line is then the one after the
host line before it. -/
def mapRange (store : Store) (host language : String) (range : Range) : Except Fault Range :=
  match store.mapPosition host language range.start with
  | .error fault => .error fault
  | .ok start =>
    match store.mapPosition host language range.stop with
    | .ok stop => .ok ⟨start, stop⟩
    | .error fault =>
      if range.stop.character ≠ 0 ∨ range.stop.line ≤ range.start.line then .error fault
      else
        (store.toHost host language ⟨range.stop.line - 1, 0⟩).map fun last =>
          ⟨start, ⟨last.line + 1, 0⟩⟩

/-- A place in a named document. Only aliases are resolved. -/
def mapLocation (store : Store) (location : Location) : Except Fault Location :=
  match Alias.parse? location.uri with
  | none => .ok location
  | some source =>
    (store.mapRange source.host source.language location.range).map fun range =>
      ⟨source.host, range⟩

def mapEdit (store : Store) (host language : String) (edit : TextEdit) : Except Fault TextEdit :=
  (store.mapRange host language edit.range).map fun range => { edit with range := range }

def mapEdits (store : Store) (host language : String) : List TextEdit → Except Fault (List TextEdit)
  | [] => .ok []
  | edit :: rest =>
    match store.mapEdit host language edit with
    | .error fault => .error fault
    | .ok mapped => (store.mapEdits host language rest).map (mapped :: ·)

/-- The edits that a named document gets, under its host; those that cannot be mapped are
dropped. -/
def retarget (store : Store) (uri : String) (edits : List TextEdit) :
    String × List TextEdit :=
  match Alias.parse? uri with
  | none => (uri, edits)
  | some source =>
    (source.host, edits.filterMap fun edit =>
      (store.mapEdit source.host source.language edit).toOption)

/-! ### Data of any shape -/

def mapPositionValue (store : Store) (host language : String) (value : Value) :
    Except Fault Value :=
  match value with
  | .position place => (store.mapPosition host language place).map .position
  | other => .error (.missingPart other "line")

def mapRangeValue (store : Store) (host language : String) (value : Value) : Except Fault Value :=
  match value with
  | .range span => (store.mapRange host language span).map .range
  | other => .error other.rangeFault

/-- A range in a named document. In a real document it may be anything. -/
def mapRangeIn (store : Store) (uri value : Value) : Except Fault Value :=
  match uri.text?.bind Alias.parse? with
  | none => .ok value
  | some source => store.mapRangeValue source.host source.language value

def mapPlaceValue (store : Store) (place : Value) : Except Fault Value := do
  let uri ← place.part "uri"
  let range ← place.part "range"
  let mapped ← store.mapRangeIn uri range
  .ok ((place.setPart "uri" (Alias.hostOfValue uri)).setPart "range" mapped)

def mapEditValue (store : Store) (host language : String) (edit : Value) : Except Fault Value :=
  edit.changePart "range" (store.mapRangeValue host language)

def orNull (mapped : Except Fault Value) : Except Fault Value :=
  match mapped with
  | .ok value => .ok value
  | .error fault => if fault.isUnmappable then .ok .null else .error fault

/-- What remains of a list when that which cannot be mapped is dropped. Whatever is dropped must
have the part that it is known by. -/
def keepMapped (map : Value → Except Fault Value) (knownBy : Option String) :
    List Value → Except Fault (List Value)
  | [] => .ok []
  | item :: rest =>
    match map item with
    | .ok mapped => (keepMapped map knownBy rest).map (mapped :: ·)
    | .error fault =>
      if fault.isUnmappable then
        match knownBy.map item.part with
        | some (.error missing) => .error missing
        | _ => keepMapped map knownBy rest
      else
        .error fault

/-- The same for an answer: a list stays one, and single data that is dropped leaves nothing. -/
def keepMappedItems (map : Value → Except Fault Value) (answer : Value) : Except Fault Value :=
  match answer with
  | .list items => (keepMapped map none items).map .list
  | item => orNull (map item)

end Store

end LanguageBridge
