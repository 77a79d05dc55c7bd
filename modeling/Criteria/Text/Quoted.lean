import Criteria.Text.Visible

/-!
# Quoted Text

Text between quotes, for people to read in logs.

Every text has a quoted form on one line, and whatever cannot be seen in it is
spelled out.

## Main definitions

* `escape`: A character between the quotes.
* `quoted`: Text between quotes.
-/

namespace Criteria

namespace Text

/-- A character between quotes. Quotes, backslashes and the common controls are
    escaped by a letter, and what is not visible by its number. -/
def escape (c : Char) : List Char :=
  match c with
  | '"' => ['\\', '"']
  | '\\' => ['\\', '\\']
  | '\t' => ['\\', 't']
  | '\n' => ['\\', 'n']
  | '\r' => ['\\', 'r']
  | '\x00' => ['\\', '0']
  | c =>
    if isVisible c then [c]
    else ['\\', 'u', '\x7b'] ++ Nat.toDigits 16 c.toNat ++ ['\x7d']

/-- Text between quotes. -/
def quoted (s : String) : String :=
  String.ofList ('"' :: (s.toList.flatMap escape ++ ['"']))

end Text

end Criteria
