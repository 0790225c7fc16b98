namespace LanguageBridge

/-! A chunk is a run of host lines in one language, with the place it takes in the synthetic
document of that language. Both ends are inclusive, and the marker lines around it are not part
of it. -/

structure Chunk where
  language : String
  hostStart : Int
  hostEnd : Int
  syntheticStart : Int := 0
deriving DecidableEq, Repr, Inhabited

namespace Chunk

def lineCount (chunk : Chunk) : Int :=
  chunk.hostEnd - chunk.hostStart + 1

def syntheticEnd (chunk : Chunk) : Int :=
  chunk.syntheticStart + chunk.lineCount - 1

def containsHost (chunk : Chunk) (line : Int) : Bool :=
  chunk.hostStart ≤ line && line ≤ chunk.hostEnd

def containsSynthetic (chunk : Chunk) (line : Int) : Bool :=
  chunk.syntheticStart ≤ line && line ≤ chunk.syntheticEnd

def intersects (chunk : Chunk) (first last : Int) : Bool :=
  chunk.hostStart ≤ last && first ≤ chunk.hostEnd

@[simp] theorem containsHost_iff {chunk : Chunk} {line : Int} :
    chunk.containsHost line = true ↔ chunk.hostStart ≤ line ∧ line ≤ chunk.hostEnd := by
  simp [containsHost]

@[simp] theorem containsSynthetic_iff {chunk : Chunk} {line : Int} :
    chunk.containsSynthetic line = true ↔
      chunk.syntheticStart ≤ line ∧ line ≤ chunk.syntheticEnd := by
  simp [containsSynthetic]

end Chunk

end LanguageBridge
