import Criteria.Json.Basic

/-!
# JSON Documents

JSON text as a tree, before anyone asks what it is for.

A document keeps what data forgets: the order of members, members named twice,
and literals that are spelled correctly but denote nothing. The forms in which
rules and settings are exchanged are read from documents, since there a member
named twice is a fault and a member nobody asks for is skipped whatever it
holds.

## Main definitions

* `Document`: JSON text as a tree.
* `chars`, `text`: The tree written without blanks.
* `nesting`: How many brackets are open at once in the text of a document.
* `Json.toDocument`, `Json.text`: Data as a document and as text.
* `toJson?`: The data a document denotes, within a limit on nesting.
-/

namespace Criteria

namespace Json

/-- How many brackets may be open at once where a document is put to use. -/
def nestingLimit : Nat := 127

/-- JSON text as a tree. A literal that is spelled correctly but denotes
    nothing is `void`: a number too great for every double, or text with half
    of a surrogate pair. -/
inductive Document where
  | null
  | bool (b : Bool)
  | number (n : Number)
  | string (s : String)
  | array (items : List Document)
  | object (members : List (String × Document))
  | void

namespace Document

instance : Inhabited Document := ⟨.null⟩

/-- A digit of base sixteen, in lower case. -/
def hexDigit (n : Nat) : Char :=
  Nat.digitChar (n % 16)

/-- A character inside a string literal. Quotes, backslashes and control
    characters are escaped, the common ones by a letter; all else stands for
    itself. -/
def escape (c : Char) : List Char :=
  match c with
  | '"' => ['\\', '"']
  | '\\' => ['\\', '\\']
  | '\x08' => ['\\', 'b']
  | '\t' => ['\\', 't']
  | '\n' => ['\\', 'n']
  | '\x0c' => ['\\', 'f']
  | '\r' => ['\\', 'r']
  | c =>
    if c.toNat < 0x20 then ['\\', 'u', '0', '0', hexDigit (c.toNat / 16), hexDigit c.toNat]
    else [c]

/-- A string literal. -/
def quoted (s : String) : List Char :=
  '"' :: (s.toList.flatMap escape ++ ['"'])

mutual

/-- A document as text, without blanks. A void literal stands as `null`. -/
def chars : Document → List Char
  | .null => "null".toList
  | .bool true => "true".toList
  | .bool false => "false".toList
  | .number n => n.chars
  | .string s => quoted s
  | .array [] => ['[', ']']
  | .array (x :: rest) => '[' :: (x.chars ++ itemChars rest)
  | .object [] => ['{', '}']
  | .object ((name, x) :: rest) => '{' :: (quoted name ++ ':' :: (x.chars ++ memberChars rest))
  | .void => "null".toList

/-- The further items of an array and its end. -/
def itemChars : List Document → List Char
  | [] => [']']
  | x :: rest => ',' :: (x.chars ++ itemChars rest)

/-- The further members of an object and its end. -/
def memberChars : List (String × Document) → List Char
  | [] => ['}']
  | (name, x) :: rest => ',' :: (quoted name ++ ':' :: (x.chars ++ memberChars rest))

end

/-- A document as text. -/
def text (d : Document) : String :=
  String.ofList d.chars

mutual

/-- How many brackets are open at once in the text of a document. -/
def nesting : Document → Nat
  | .array items => 1 + itemNesting items
  | .object members => 1 + memberNesting members
  | .null | .bool _ | .number _ | .string _ | .void => 0

/-- The greatest nesting of an item, zero if there is none. -/
def itemNesting : List Document → Nat
  | [] => 0
  | x :: rest => max x.nesting (itemNesting rest)

/-- The greatest nesting of the value of a member, zero if there is none. -/
def memberNesting : List (String × Document) → Nat
  | [] => 0
  | (_, x) :: rest => max x.nesting (memberNesting rest)

end

/-- The data a document denotes, with at most `room` further brackets open at
    once. There is none if the nesting is deeper or a literal is void. -/
def denote? : (room : Nat) → Document → Option Json
  | _, .null => some .null
  | _, .bool b => some (.bool b)
  | _, .number n => some (.number n)
  | _, .string s => some (.string s)
  | room + 1, .array items => (items.mapM (denote? room)).map .array
  | room + 1, .object members =>
    (members.mapM fun m => (denote? room m.2).map (m.1, ·)).map .object
  | _, _ => none

/-- The data a document denotes, in canonical form. -/
def toJson? (d : Document) : Option Json :=
  (denote? nestingLimit d).map canonical

end Document

mutual

/-- Data as a document. -/
def toDocument : Json → Document
  | .null => .null
  | .bool b => .bool b
  | .number n => .number n
  | .string s => .string s
  | .array items => .array (itemDocuments items)
  | .object members => .object (memberDocuments members)

/-- The items of an array as documents. -/
def itemDocuments : List Json → List Document
  | [] => []
  | x :: rest => x.toDocument :: itemDocuments rest

/-- The members of an object as documents. -/
def memberDocuments : List (String × Json) → List (String × Document)
  | [] => []
  | (name, x) :: rest => (name, x.toDocument) :: memberDocuments rest

end

/-- Data as text. -/
def text (j : Json) : String :=
  j.toDocument.text

/-- How many brackets are open at once in the text of data. -/
def nesting (j : Json) : Nat :=
  j.toDocument.nesting

end Json

end Criteria
