import EventBus.Text.Unprintable

/-!
# Quoted texts

A text between double quotes, with every character that would not show replaced by an escape:
a short one for the quote, the backslash and the four usual controls, and the number of the code
point for the rest.
-/

set_option autoImplicit false

namespace EventBus.Text

/-- How one character stands between double quotes. A single quote needs no escape there. -/
def quotedChar : Char → List Char
  | '\x00' => ['\\', '0']
  | '\t' => ['\\', 't']
  | '\r' => ['\\', 'r']
  | '\n' => ['\\', 'n']
  | '\\' => ['\\', '\\']
  | '"' => ['\\', '"']
  | c =>
    if isUnprintable c then
      ['\\', 'u', '\x7b'] ++ Nat.toDigits 16 c.toNat ++ ['\x7d']
    else [c]

def quoted (s : String) : String :=
  String.ofList ('"' :: s.toList.flatMap quotedChar ++ ['"'])

end EventBus.Text
