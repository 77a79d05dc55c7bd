import Criteria.Value

/-!
# Expressions

Rules as trees.

## Main definitions

* `Expr`: Literals, variables, binary operations and calls.
* `Expr.equals`: Equality of rules, literals being compared as values.

## Theorems

* `Expr.induct`: Induction on rules, with the arguments of a call all at once.
-/

namespace Criteria

/-- A rule. A variable may be a path into nested data, its segments joined by
    dots. -/
inductive Expr where
  | literal (v : Value)
  | variable (name : String)
  | binary (op : Operator) (left right : Expr)
  | call (function : String) (arguments : List Expr)

namespace Expr

instance : Inhabited Expr := ⟨.literal default⟩

/-- Induction on rules. For a call the induction hypothesis speaks of every
    argument, so nothing has to be said about lists of rules. -/
@[elab_as_elim]
theorem induct {motive : Expr → Prop} (literal : ∀ v, motive (.literal v))
    (reference : ∀ name, motive (.variable name))
    (binary : ∀ op left right, motive left → motive right → motive (.binary op left right))
    (call : ∀ function args, (∀ a ∈ args, motive a) → motive (.call function args))
    (e : Expr) : motive e :=
  @Expr.rec motive (fun args => ∀ a ∈ args, motive a) literal reference binary call
    (fun _ h => absurd h List.not_mem_nil)
    (fun _ _ hhead htail _ h => (List.mem_cons.1 h).elim (fun h => h ▸ hhead) (htail _)) e

mutual

/-- Equality of rules. Literals are compared as values, so a rule with a
    literal that is not a number differs from itself. -/
def equals : Expr → Expr → Bool
  | .literal v, .literal w => v.equals w
  | .variable a, .variable b => a == b
  | .binary op a b, .binary op' a' b' => op == op' && a.equals a' && b.equals b'
  | .call f as, .call g bs => f == g && equalArguments as bs
  | _, _ => false

/-- Equality of argument lists. -/
def equalArguments : List Expr → List Expr → Bool
  | [], [] => true
  | a :: as, b :: bs => a.equals b && equalArguments as bs
  | _, _ => false

end

end Expr

end Criteria
