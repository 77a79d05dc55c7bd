import Criteria.Json.Reader

/-!
# Libraries for JSON Text

What rules and contexts need of a library that writes and reads JSON text.

Text comes in and goes out through a library, and libraries differ: in how they
write a double, in how closely they read a numeral, in the order in which they
look at things. None of this is a rule's business. So a library is a parameter
of whatever passes through text, and the one at hand is an instance.

## Main definitions

* `Library`: A library for JSON text.
* `Library.standard`: The library at hand.
-/

namespace Criteria

namespace Json

/-- A library for JSON text. -/
structure Library where
  /-- How doubles are written and numerals are read. -/
  numbers : NumberFormat
  /-- The text of a document, without blanks. -/
  write : Document → String
  /-- The data that a text spells. -/
  readData? : String → Option Json

/-- The library at hand. -/
def Library.standard : Library where
  numbers := .nearest
  write := Document.text
  readData? := read?

end Json

end Criteria
