import Criteria.Json.Document

/-!
# Reading JSON Text

The document that a text spells, if it follows the grammar.

The grammar is the strict one: blanks are space, tab and line ends, there are
no comments and no commas before a closing bracket, and nothing follows the
document. Nesting is not limited here; what a document denotes is.

## Main definitions

* `scanString?`: A string literal, as the pieces it is made of.
* `assemble?`: The text that the pieces denote.
* `scanNumber?`: A number literal.
* `Document.read?`: The document of a text.
-/

namespace Criteria

namespace Json

namespace Reader

/-- Text without the blanks in front of it. -/
def skipBlanks (cs : List Char) : List Char :=
  cs.dropWhile fun c => c = ' ' || c = '\t' || c = '\n' || c = '\r'

/-- A piece of a string literal: a character, written as itself or escaped by
    a letter, or a unit of sixteen bits escaped by its number. -/
inductive Piece where
  | char (c : Char)
  | unit (n : Nat)

/-- The value of a digit of base sixteen, in either case. -/
def hexValue? (c : Char) : Option Nat :=
  if '0' ≤ c ∧ c ≤ '9' then some (c.toNat - '0'.toNat)
  else if 'a' ≤ c ∧ c ≤ 'f' then some (c.toNat - 'a'.toNat + 10)
  else if 'A' ≤ c ∧ c ≤ 'F' then some (c.toNat - 'A'.toNat + 10)
  else none

/-- The number written by four digits of base sixteen. -/
def hexUnit? (a b c d : Char) : Option Nat := do
  return (((← hexValue? a) * 16 + (← hexValue? b)) * 16 + (← hexValue? c)) * 16 + (← hexValue? d)

/-- The character that an escape by a letter denotes. -/
def escaped? (c : Char) : Option Char :=
  match c with
  | '"' => some '"'
  | '\\' => some '\\'
  | '/' => some '/'
  | 'b' => some '\x08'
  | 't' => some '\t'
  | 'n' => some '\n'
  | 'f' => some '\x0c'
  | 'r' => some '\r'
  | _ => none

/-- A string literal after its opening quote: its pieces, and the text after
    its closing quote. Control characters must be escaped. -/
def scanString? : List Char → Option (List Piece × List Char)
  | [] => none
  | '"' :: rest => some ([], rest)
  | '\\' :: 'u' :: a :: b :: c :: d :: rest => do
    let n ← hexUnit? a b c d
    let (pieces, rest) ← scanString? rest
    return (.unit n :: pieces, rest)
  | '\\' :: c :: rest => do
    let c ← escaped? c
    let (pieces, rest) ← scanString? rest
    return (.char c :: pieces, rest)
  | c :: rest =>
    if c.toNat < 0x20 ∨ c = '\\' then none
    else do
      let (pieces, rest) ← scanString? rest
      return (.char c :: pieces, rest)

/-- The text that pieces denote: two units that form a surrogate pair are one
    character, and half of a pair denotes nothing. -/
def assemble? : List Piece → Option (List Char)
  | [] => some []
  | .char c :: rest => (assemble? rest).map (c :: ·)
  | .unit high :: .unit low :: rest =>
    if 0xD800 ≤ high ∧ high < 0xDC00 then
      if 0xDC00 ≤ low ∧ low < 0xE000 then
        (assemble? rest).map
          (Char.ofNat (0x10000 + (high - 0xD800) * 0x400 + (low - 0xDC00)) :: ·)
      else none
    else if 0xDC00 ≤ high ∧ high < 0xE000 then none
    else (assemble? (.unit low :: rest)).map (Char.ofNat high :: ·)
  | .unit n :: rest =>
    if 0xD800 ≤ n ∧ n < 0xE000 then none else (assemble? rest).map (Char.ofNat n :: ·)

/-- Whether a character can stand in a number. -/
def inNumber (c : Char) : Bool :=
  c.isDigit || c = '.' || c = 'e' || c = 'E' || c = '+' || c = '-'

/-- A number literal without its sign, and the text after it. In a document
    nothing that can stand in a number follows one, so the longest stretch of
    such characters is the literal or there is none. -/
def scanNumber? (negative : Bool) (cs : List Char) : Option (Document × List Char) :=
  let literal := cs.takeWhile inNumber
  if Number.isNumeral literal then
    let value := match NumberFormat.nearest.number? negative literal with
      | some n => .number n
      | none => .void
    some (value, cs.dropWhile inNumber)
  else none

/-- A member name that denotes text makes its object meaningful; otherwise the
    object as a whole denotes nothing. -/
def Members := Option (List (String × Document))

/-- A member put in front of others, all of which must have names. -/
def Members.cons (name : Option (List Char)) (value : Document) (rest : Members) : Members :=
  match name, rest with
  | some name, some rest => some ((String.ofList name, value) :: rest)
  | _, _ => none

/-- The object that members make up. -/
def Members.object : Members → Document
  | some members => .object members
  | none => .void

mutual

/-- A document at the front of the text, blanks before it included. Every call
    within uses up one unit of fuel. -/
def value? : (fuel : Nat) → List Char → Option (Document × List Char)
  | 0, _ => none
  | fuel + 1, cs =>
    match skipBlanks cs with
    | 'n' :: 'u' :: 'l' :: 'l' :: rest => some (.null, rest)
    | 't' :: 'r' :: 'u' :: 'e' :: rest => some (.bool true, rest)
    | 'f' :: 'a' :: 'l' :: 's' :: 'e' :: rest => some (.bool false, rest)
    | '"' :: rest => do
      let (pieces, rest) ← scanString? rest
      match assemble? pieces with
      | some s => return (.string (String.ofList s), rest)
      | none => return (.void, rest)
    | '[' :: rest =>
      match skipBlanks rest with
      | ']' :: rest => some (.array [], rest)
      | rest => (items? fuel rest).map fun (items, rest) => (.array items, rest)
    | '{' :: rest =>
      match skipBlanks rest with
      | '}' :: rest => some (.object [], rest)
      | rest => (members? fuel rest).map fun (members, rest) => (members.object, rest)
    | '-' :: rest => scanNumber? true rest
    | rest => scanNumber? false rest

/-- The items of an array up to and with its closing bracket, at least one. -/
def items? : (fuel : Nat) → List Char → Option (List Document × List Char)
  | 0, _ => none
  | fuel + 1, cs => do
    let (item, rest) ← value? fuel cs
    match skipBlanks rest with
    | ',' :: rest =>
      let (items, rest) ← items? fuel rest
      return (item :: items, rest)
    | ']' :: rest => return ([item], rest)
    | _ => none

/-- The members of an object up to and with its closing bracket, at least
    one. -/
def members? : (fuel : Nat) → List Char → Option (Members × List Char)
  | 0, _ => none
  | fuel + 1, cs =>
    match skipBlanks cs with
    | '"' :: rest => do
      let (pieces, rest) ← scanString? rest
      match skipBlanks rest with
      | ':' :: rest =>
        let (value, rest) ← value? fuel rest
        match skipBlanks rest with
        | ',' :: rest =>
          let (members, rest) ← members? fuel rest
          return (members.cons (assemble? pieces) value, rest)
        | '}' :: rest => return (Members.cons (assemble? pieces) value (some []), rest)
        | _ => none
      | _ => none
    | _ => none

end

end Reader

/-- The document that a text spells, if nothing but blanks follows it. A
    bracket or a comma is used up before at most two further calls, so twice
    the length of the text is fuel enough. -/
def Document.read? (s : String) : Option Document :=
  match Reader.value? (2 * s.toList.length + 2) s.toList with
  | some (d, rest) => if (Reader.skipBlanks rest).isEmpty then some d else none
  | none => none

/-- The data that a text denotes. -/
def read? (s : String) : Option Json :=
  (Document.read? s).bind Document.toJson?

end Json

end Criteria
