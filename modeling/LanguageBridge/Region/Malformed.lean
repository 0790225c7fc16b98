namespace LanguageBridge

/-! Regions that could not be turned into a chunk are reported, never raised. -/

structure MalformedRegion where
  line : Int
  reason : String
  language : Option String := none
deriving DecidableEq, Repr, Inhabited

def MalformedRegion.message (region : MalformedRegion) : String :=
  "line " ++ toString region.line ++ ": " ++ region.reason

/-- A run of lines that a rule proposes as a chunk, with the line of its opening marker. -/
structure Region where
  language : String
  first : Int
  last : Int
  marker : Int
deriving DecidableEq, Repr, Inhabited

structure Findings where
  regions : List Region := []
  malformed : List MalformedRegion := []
deriving DecidableEq, Repr, Inhabited

end LanguageBridge
