/-!
# Characters that leave no trace

Code points with the property `Default_Ignorable_Code_Point`: joiners, fillers, variation selectors
and other marks that a display passes over in silence. Some of them are letters by category, so no
rule on categories finds them all. The ranges follow Unicode 17.
-/

set_option autoImplicit false

namespace GasMachine.DefaultIgnorable

/-- Ranges of code points, both ends included, in ascending order. -/
def ranges : List (Nat × Nat) :=
  [(0xad, 0xad), (0x34f, 0x34f), (0x61c, 0x61c), (0x115f, 0x1160), (0x17b4, 0x17b5),
   (0x180b, 0x180f), (0x200b, 0x200f), (0x202a, 0x202e), (0x2060, 0x206f), (0x3164, 0x3164),
   (0xfe00, 0xfe0f), (0xfeff, 0xfeff), (0xffa0, 0xffa0), (0xfff0, 0xfff8), (0x1bca0, 0x1bca3),
   (0x1d173, 0x1d17a), (0xe0000, 0xe0fff)]

/-- Whether a display shows nothing for a character. -/
def contains (c : Char) : Bool :=
  let code := c.toNat
  ranges.any fun (low, high) => low ≤ code && code ≤ high

end GasMachine.DefaultIgnorable
