namespace LanguageBridge

/-! Places in a text. Lines and characters count from zero; an end is exclusive. -/

structure Position where
  line : Int
  character : Int
deriving DecidableEq, Repr, Inhabited

def Position.before (a b : Position) : Bool :=
  a.line < b.line || (a.line == b.line && a.character ≤ b.character)

structure Range where
  start : Position
  stop : Position
deriving DecidableEq, Repr, Inhabited

/-- The greatest line or character that can be exchanged. -/
def Position.limit : Int := 2147483647

inductive Position.Field where
  | line
  | character
deriving DecidableEq, Repr

def Position.outOfBounds? (position : Position) : Option (Position.Field × Int) :=
  if position.line < 0 ∨ Position.limit < position.line then
    some (.line, position.line)
  else if position.character < 0 ∨ Position.limit < position.character then
    some (.character, position.character)
  else
    none

/-- A range inside the document asked for contains its two ends. -/
def Range.covers (range : Range) (position : Position) : Bool :=
  range.start.before position && position.before range.stop

end LanguageBridge
