namespace LanguageBridge.Bisection

/-! Looking up a number in an ascending list by halving. -/

/-- Narrows down, between `low` and `high`, how many entries come before all that are above
`wanted`. -/
def narrow (entries : List Int) (wanted : Int) (low high : Nat) : Nat :=
  if low < high then
    let middle := (low + high) / 2
    if wanted < entries.getD middle 0 then narrow entries wanted low middle
    else narrow entries wanted (middle + 1) high
  else
    low
termination_by high - low

/-- The place of the last entry that is not above `wanted`. -/
def last? (entries : List Int) (wanted : Int) : Option Nat :=
  match narrow entries wanted 0 entries.length with
  | 0 => none
  | count + 1 => some count

/-- What stands in a list where its start is the last that is not above `wanted`. -/
def lookUp? {α : Type} (starts : List Int) (entries : List α) (wanted : Int) : Option α :=
  (last? starts wanted).bind fun place => entries[place]?

end LanguageBridge.Bisection
