import LanguageBridge.Text.Lowercase

namespace LanguageBridge.Text

/-! Comparison of characters without regard to case. Two characters agree when their lower forms
do, or when those forms are two shapes of one letter, such as the long and the round s. -/

/-- Lower-case shapes of one letter, each with the shape that stands for the letter. -/
def letterShapes : List (Char × Char) :=
  [(0x131, 0x69), (0x17F, 0x73), (0x3B9, 0x345), (0x3BC, 0xB5), (0x3C3, 0x3C2), (0x3D0, 0x3B2),
   (0x3D1, 0x3B8), (0x3D5, 0x3C6), (0x3D6, 0x3C0), (0x3F0, 0x3BA), (0x3F1, 0x3C1), (0x3F5, 0x3B5),
   (0x1C80, 0x432), (0x1C81, 0x434), (0x1C82, 0x43E), (0x1C83, 0x441), (0x1C84, 0x442),
   (0x1C85, 0x442), (0x1C86, 0x44A), (0x1C87, 0x463), (0x1E9B, 0x1E61), (0x1FBE, 0x345),
   (0x1FD3, 0x390), (0x1FE3, 0x3B0), (0xA64B, 0x1C88), (0xFB06, 0xFB05)].map
    fun shape => (Char.ofNat shape.1, Char.ofNat shape.2)

/-- The same for two characters exactly when they agree without regard to case. -/
def caselessKey (c : Char) : Char :=
  let lower := lowerCharacter c
  (letterShapes.lookup lower).getD lower

def caselessEqual (a b : Char) : Bool :=
  caselessKey a == caselessKey b

def dropCaseless? : List Char → List Char → Option (List Char)
  | [], text => some text
  | _ :: _, [] => none
  | p :: pattern, c :: text => if caselessEqual p c then dropCaseless? pattern text else none

end LanguageBridge.Text
