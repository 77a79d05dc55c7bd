import Criteria.Expr.Basic
import Criteria.Json.Library
import Criteria.Wire.Scalar

/-!
# Wire Forms of Rules

Rules as JSON documents.

A rule is an alternative: a literal, a variable, an operation or a call. Each
opens brackets of its own, so the limit on nesting bounds the rules that can be
read; it is the measure by which reading ends.

The form follows from the declaration of rules, and code for it is generated
from there. What is generated is a parameter of whatever writes and reads rules,
`Expr.Codec`, like the library for JSON text that it works with.

## Main definitions

* `Expr.literalName`: The names of literals by type.
* `Expr.toDocument`: A rule in wire form.
* `Expr.operation?`, `Expr.call?`: An operation and a call by their fields.
* `Expr.ofDocument?`: The rule that a document spells.
* `Expr.ofWireText?`: The rule that a text spells.
* `Expr.Codec`: Writing and reading of rules in wire form.
* `Expr.Codec.standard`: The one at hand.
* `Expr.wireText`: A rule as text in wire form.
-/

namespace Criteria

open Json (Document)

namespace Expr

/-- The name of a literal in wire form, by its type. -/
def literalName : ScalarType → String
  | .int64 => "Integer"
  | .float => "Float"
  | .string => "String"
  | .bool => "Boolean"

mutual

/-- A rule in wire form. -/
def toDocument : Expr → Document
  | .literal v => Wire.tagged "Literal" (Wire.tagged (literalName v.type) v.scalar)
  | .variable name => Wire.tagged "Variable" (.string name)
  | .binary op left right =>
    Wire.tagged "BinaryOp"
      (.object [("op", op.toDocument), ("left", left.toDocument), ("right", right.toDocument)])
  | .call function arguments =>
    Wire.tagged "FunctionCall"
      (.object [("function", .string function), ("arguments", .array (documents arguments))])

/-- The arguments of a call in wire form. -/
def documents : List Expr → List Document
  | [] => []
  | e :: rest => e.toDocument :: documents rest

end

/-- The value of a literal in wire form. -/
def literal? (d : Document) : Option Value := do
  let (name, contents) ← Wire.alternative? d
  let type ← ScalarType.all.find? fun t => literalName t == name
  Value.ofScalar? type contents

/-- An operation by its fields, its operands being read by `operand?`. -/
def operation? (room : Nat) (operand? : Document → Option Expr) (contents : Document) :
    Option Expr :=
  match Wire.fields? ["op", "left", "right"] contents with
  | some [some op, some left, some right] =>
    return .binary (← Operator.ofDocument? room op) (← operand? left) (← operand? right)
  | _ => none

/-- A call by its fields, its arguments being read by `argument?`. -/
def call? (argument? : Document → Option Expr) (contents : Document) : Option Expr :=
  match Wire.fields? ["function", "arguments"] contents with
  | some [some function, some (.array arguments)] =>
    return .call (← function.string?) (← arguments.mapM argument?)
  | _ => none

/-- The rule that a document spells, with at most `room` further brackets open
    at once. A variable takes one for itself, a literal and an operation take
    two, and a call takes a third one for its arguments. -/
def ofDocument? : (room : Nat) → Document → Option Expr
  | 0, _ => none
  | room + 1, d => do
    let (name, contents) ← Wire.alternative? d
    if name = "Variable" then contents.string?.map .variable
    else match room with
      | 0 => none
      | inner + 1 =>
        if name = "Literal" then (literal? contents).map .literal
        else if name = "BinaryOp" then operation? inner (ofDocument? inner) contents
        else match inner with
          | 0 => none
          | innermost + 1 =>
            if name = "FunctionCall" then call? (ofDocument? innermost) contents else none

/-- The rule that a text spells. -/
def ofWireText? (s : String) : Option Expr :=
  (Document.read? s).bind (ofDocument? Json.nestingLimit)

/-- Writing and reading of rules in wire form. -/
structure Codec where
  /-- A rule in wire form. -/
  encode : Expr → Document
  /-- The rule that a document spells, however many brackets it opens. -/
  decode? : Document → Option Expr
  /-- The rule that a text spells. -/
  read? : String → Option Expr

/-- The codec at hand. -/
def Codec.standard : Codec where
  encode := toDocument
  decode? d := ofDocument? d.nesting d
  read? := ofWireText?

/-- A rule as text in wire form. -/
def wireText (L : Json.Library) (C : Codec) (e : Expr) : String :=
  L.write (C.encode e)

end Expr

end Criteria
