import LanguageBridge.Bisection
import LanguageBridge.Region.Chunk
import LanguageBridge.Region.Fence
import LanguageBridge.Region.Tag
import LanguageBridge.Text.Lines

namespace LanguageBridge

/-! The chunks of a host document. Each rule reads the whole document by itself; the regions are
then taken in host order, and one that overlaps an accepted region is reported instead. -/

inductive Rule where
  | fence
  | tag (rule : TagRule)

namespace Rule

def scan (rule : Rule) (names : LanguageNames) (lines : List (List Char)) : Findings :=
  match rule with
  | fence => Fence.scan names lines
  | tag rule => rule.scan names lines

def markdown : List Rule := [fence]

def html : List Rule := [tag .script, tag .style]

/-- The rules for a kind of host document; all but the tag languages are read for fences. -/
def forLanguageId (languageId : Option String) : List Rule :=
  if languageId ∈ ["html", "htm", "xhtml", "vue", "svelte"].map some then html else markdown

end Rule

structure Extraction where
  chunks : List Chunk := []
  malformed : List MalformedRegion := []
deriving DecidableEq, Repr, Inhabited

namespace Extraction

def regionOrder (a b : Region) : Bool :=
  a.first < b.first || (a.first == b.first && a.last ≤ b.last)

def overlapReason (lastEnd : Int) : String :=
  "region overlaps an earlier region ending at line " ++ toString lastEnd

/-- Accepts regions in order; `lastEnd` is the last line accepted so far. -/
def accept (lastEnd : Int) : List Region → Extraction
  | [] => {}
  | region :: rest =>
    if region.first ≤ lastEnd then
      let later := accept lastEnd rest
      { later with malformed :=
          ⟨region.marker, overlapReason lastEnd, some region.language⟩ :: later.malformed }
    else
      let later := accept region.last rest
      { later with chunks :=
          { language := region.language, hostStart := region.first, hostEnd := region.last } ::
            later.chunks }

def ofLines (rules : List Rule) (names : LanguageNames) (lines : List String) : Extraction :=
  let findings := rules.map fun rule => rule.scan names (lines.map String.toList)
  let accepted := accept (-1) ((findings.flatMap Findings.regions).mergeSort regionOrder)
  let malformed := findings.flatMap Findings.malformed ++ accepted.malformed
  { chunks := accepted.chunks
    malformed := malformed.mergeSort fun a b => a.line ≤ b.line }

def ofText (rules : List Rule) (names : LanguageNames) (text : String) : Extraction :=
  ofLines rules names (Text.splitLines text)

def languages (extraction : Extraction) : List String :=
  (extraction.chunks.map Chunk.language).foldl
    (fun seen language => if language ∈ seen then seen else seen ++ [language]) []

def chunksOf (extraction : Extraction) (language : String) : List Chunk :=
  extraction.chunks.filter fun chunk => chunk.language = language

def languageAt? (extraction : Extraction) (line : Int) : Option String :=
  ((Bisection.lookUp? (extraction.chunks.map Chunk.hostStart) extraction.chunks line).filter
    fun chunk => chunk.containsHost line).map Chunk.language

end Extraction

end LanguageBridge
