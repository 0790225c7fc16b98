namespace LanguageBridge.Text

/-! Sets of characters written as runs of code points, in ascending order. For each run it is told
how many code points lie between it and the run before, and how many it has itself. -/

abbrev CodePoints := List (Nat × Nat)

namespace CodePoints

/-- Whether a code point is in one of the runs, counted from where they begin. -/
def has : CodePoints → Nat → Bool
  | [], _ => false
  | (passed, count) :: rest, code =>
    if code < passed + count then passed ≤ code else has rest (code - (passed + count))

def contains (runs : CodePoints) (c : Char) : Bool :=
  runs.has c.toNat

end CodePoints

end LanguageBridge.Text
