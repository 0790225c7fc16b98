import LanguageBridge.Fault
import LanguageBridge.Region.Chunk
import LanguageBridge.Text.Lines

namespace LanguageBridge

/-! The text of a synthetic document: the host lines of the chunks, one chunk after the other,
with blank lines between them. -/

inductive Padding where
  /-- One blank line between neighbouring chunks. -/
  | compact
  /-- As many blank lines as the host has lines there, so that every line keeps its number. -/
  | preserve
deriving DecidableEq, Repr, Inhabited

namespace Padding

def name : Padding → String
  | compact => "compact"
  | preserve => "preserve"

def all : List Padding := [compact, preserve]

def ofName? (name : String) : Option Padding :=
  all.find? fun padding => padding.name = name

def ofName (name : String) : Except Fault Padding :=
  match ofName? name with
  | some padding => .ok padding
  | none => .error (.unknownPadding name)

def gap (padding : Padding) (previousEnd : Option Int) (chunk : Chunk) : Nat :=
  match padding, previousEnd with
  | compact, none => 0
  | compact, some _ => 1
  | preserve, none => chunk.hostStart.toNat
  | preserve, some last => (chunk.hostStart - (last + 1)).toNat

end Padding

/-- Where an index into a list of `count` lines lies; a negative one counts from the end. -/
def lineBound (count : Nat) (index : Int) : Nat :=
  if index < 0 then (index + count).toNat else min index.toNat count

def linesBetween (lines : List String) (first last : Int) : List String :=
  let lower := lineBound lines.length first
  (lines.drop lower).take (lineBound lines.length (last + 1) - lower)

structure Layout where
  lines : List String := []
  chunks : List Chunk := []
deriving DecidableEq, Repr, Inhabited

namespace Layout

/-- Lays out chunks below `height` lines, after a chunk that ended at `previousEnd`. -/
def below (padding : Padding) (hostLines : List String) (height : Nat) (previousEnd : Option Int) :
    List Chunk → Layout
  | [] => {}
  | chunk :: rest =>
    let gap := padding.gap previousEnd chunk
    let body := linesBetween hostLines chunk.hostStart chunk.hostEnd
    let later := below padding hostLines (height + gap + body.length) (some chunk.hostEnd) rest
    { lines := List.replicate gap "" ++ body ++ later.lines
      chunks := { chunk with syntheticStart := ((height + gap : Nat) : Int) } :: later.chunks }

def ofChunks (padding : Padding) (hostLines : List String) (chunks : List Chunk) : Layout :=
  below padding hostLines 0 none chunks

/-- Every line, the last one too, ends in a line feed. -/
def text (layout : Layout) : String :=
  if layout.lines = [] then "" else Text.joinLines layout.lines ++ "\n"

end Layout

end LanguageBridge
