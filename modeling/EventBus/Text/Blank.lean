import EventBus.Text.CodePoints

/-!
# Blank characters

The characters that separate words and never belong to one: Unicode's property `White_Space`,
twenty-five characters. `trim` drops them at both ends of a text and nowhere else.
-/

set_option autoImplicit false

namespace EventBus.Text

/-- The property `White_Space`. -/
def blanks : CodePoints :=
  [(0x9, 0xd), (0x20, 0x20), (0x85, 0x85), (0xa0, 0xa0), (0x1680, 0x1680), (0x2000, 0x200a),
    (0x2028, 0x2029), (0x202f, 0x202f), (0x205f, 0x205f), (0x3000, 0x3000)]

def isBlank (c : Char) : Bool := blanks.contains c

/-- The text without the blanks at its two ends. -/
def trim (cs : List Char) : List Char :=
  ((cs.dropWhile isBlank).reverse.dropWhile isBlank).reverse

end EventBus.Text
