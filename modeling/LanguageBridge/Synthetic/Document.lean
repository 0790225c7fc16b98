import LanguageBridge.Bisection
import LanguageBridge.Synthetic.Layout

namespace LanguageBridge

/-! A synthetic document holds all chunks of one language of one host. It is what the child
server of that language sees, and it maps lines both ways. -/

structure Document where
  language : String
  hostUri : String
  text : String := ""
  chunks : List Chunk := []
  version : Int := 0
  /-- The first lines of the chunks, kept apart for looking them up. -/
  syntheticStarts : List Int := []
  hostStarts : List Int := []
deriving DecidableEq, Repr, Inhabited

namespace Document

/-- Takes over a layout; the version counts the changes. -/
def setLayout (document : Document) (layout : Layout) : Document :=
  if layout.text = document.text ∧ layout.chunks = document.chunks then document
  else
    { document with
      text := layout.text
      chunks := layout.chunks
      version := document.version + 1
      syntheticStarts := layout.chunks.map Chunk.syntheticStart
      hostStarts := layout.chunks.map Chunk.hostStart }

def lineCount (document : Document) : Int :=
  match document.chunks.getLast? with
  | none => 0
  | some chunk => chunk.syntheticEnd + 1

def chunkAtSynthetic? (document : Document) (line : Int) : Option Chunk :=
  (Bisection.lookUp? document.syntheticStarts document.chunks line).filter fun chunk =>
    line ≤ chunk.syntheticEnd

def chunkAtHost? (document : Document) (line : Int) : Option Chunk :=
  (Bisection.lookUp? document.hostStarts document.chunks line).filter fun chunk =>
    line ≤ chunk.hostEnd

def toHost (document : Document) (place : Position) : Except Fault Position :=
  match document.chunkAtSynthetic? place.line with
  | some chunk => .ok { place with line := chunk.hostStart + (place.line - chunk.syntheticStart) }
  | none => .error (.positionOutOfRange document.language place.line)

def toSynthetic (document : Document) (place : Position) : Except Fault Position :=
  match document.chunkAtHost? place.line with
  | some chunk => .ok { place with line := chunk.syntheticStart + (place.line - chunk.hostStart) }
  | none => .error (.noSyntheticRegion (some document.language) place.line)

end Document

end LanguageBridge
