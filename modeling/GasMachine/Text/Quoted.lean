import GasMachine.Text.AttachedMark
import GasMachine.Text.DefaultIgnorable
import GasMachine.Text.Printable

/-!
# Quoted text

Texts inside messages are shown between quotes, with an escape for whatever would be mistaken or
unseen: the quote itself, the backslash, the common control characters, and by code point every
other character that is invisible or attaches to the one before it.
-/

set_option autoImplicit false

namespace GasMachine.Quoted

/-- The escape by code point: `\u`, then the lower-case hexadecimal digits between braces. -/
def byCode (c : Char) : List Char :=
  ['\\', 'u', '\x7b'] ++ Nat.toDigits 16 c.toNat ++ ['\x7d']

/-- A character as it is written between two of the characters `quote`. -/
def escape (quote c : Char) : List Char :=
  if c = '\x00' then ['\\', '0']
  else if c = '\t' then ['\\', 't']
  else if c = '\r' then ['\\', 'r']
  else if c = '\n' then ['\\', 'n']
  else if c = '\\' ∨ c = quote then ['\\', c]
  else if AttachedMark.contains c ∨ DefaultIgnorable.contains c then byCode c
  else if Printable.isVisible c then [c]
  else byCode c

def char (c : Char) : String :=
  let quote := '\x27'
  String.ofList (quote :: (escape quote c ++ [quote]))

def string (text : String) : String :=
  let quote := '\x22'
  String.ofList (quote :: (text.toList.flatMap (escape quote) ++ [quote]))

end GasMachine.Quoted
