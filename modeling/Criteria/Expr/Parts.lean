import Criteria.Expr.Basic

/-!
# Parts of Expressions

What stands where in a rule.

The parts of a rule are the rule itself and, at any depth, the operands of its
operators and the arguments of its calls, each once for every place at which it
stands. What a rule mentions is read off them: it has a variable, an operator or
a call where one of its parts is that variable, an application of that operator
or that call.

## Main definitions

* `Expr.parts`: All parts of a rule.

## Theorems

* `Expr.mem_parts_self`: A rule is a part of itself.
* `Expr.mem_parts_binary`, `Expr.mem_parts_call`: The parts of an application and
  of a call.
-/

namespace Criteria

namespace Expr

mutual

/-- All parts of a rule, itself first. -/
def parts : Expr → List Expr
  | .literal v => [.literal v]
  | .variable name => [.variable name]
  | .binary op left right => .binary op left right :: (left.parts ++ right.parts)
  | .call function args => .call function args :: argumentParts args

/-- All parts of the arguments of a call. -/
def argumentParts : List Expr → List Expr
  | [] => []
  | e :: rest => e.parts ++ argumentParts rest

end

theorem argumentParts_eq_flatMap (args : List Expr) : argumentParts args = args.flatMap parts := by
  induction args with
  | nil => rw [argumentParts, List.flatMap_nil]
  | cons e rest ih => rw [argumentParts, List.flatMap_cons, ih]

theorem mem_parts_self (e : Expr) : e ∈ e.parts := by
  cases e <;> rw [parts] <;> exact List.mem_cons_self

theorem mem_parts_binary {part : Expr} {op : Operator} {left right : Expr} :
    part ∈ (binary op left right).parts ↔
      part = .binary op left right ∨ part ∈ left.parts ∨ part ∈ right.parts := by
  rw [parts, List.mem_cons, List.mem_append]

theorem mem_parts_call {part : Expr} {function : String} {args : List Expr} :
    part ∈ (call function args).parts ↔
      part = .call function args ∨ ∃ a ∈ args, part ∈ a.parts := by
  rw [parts, argumentParts_eq_flatMap, List.mem_cons, List.mem_flatMap]

end Expr

end Criteria
