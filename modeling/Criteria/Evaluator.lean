import Criteria.Builtin
import Criteria.Caster.Data
import Criteria.Settings
import Criteria.Text.Quoted

/-!
# Evaluation

The value of a rule in a context.

Evaluation is by recursion on the rule. A call hands its arguments over
suspended, so that the recursion reaches them only through the handler, and
still never leaves the rule.

The monad of the caster is the monad of evaluation. Equations about evaluation
that hold in every monad speak of the calls of the caster as much as of the
result.

## Main definitions

* `Evaluator`: Semantics of operators and functions by name.
* `Evaluator.eval`: The value of a rule.
* `Evaluator.arguments`: Expressions as suspended arguments.
* `Evaluator.evalAs`, `evalBool`, `evalString`: The value at a type.
* `Evaluator.call`: A call from outside a rule.
* `Evaluator.ofSettings`: The evaluator that settings ask for.
* `Evaluator.describe`: An evaluator in words.

## Theorems

* `Evaluator.arguments_eq_map`: Arguments are suspended one by one.
* `Evaluator.eval_literal`, `eval_variable`, `eval_binary`, `eval_call`: The
  value of each kind of rule.
-/

namespace Criteria

/-- What evaluation depends on, apart from rule and context. -/
structure Evaluator (m : Type → Type) extends Semantics m where
  registry : Registry m

namespace Evaluator

variable {m : Type → Type} [Monad m]

mutual

/-- The value of a rule. Both operands of an operator are evaluated, the left
    one first, before the type at which it works is chosen. -/
def eval (ev : Evaluator m) : Expr → Context → Outcome m Value
  | .literal v => fun _ => pure v
  | .variable name => fun c => Outcome.ofExcept ((c.lookup name).bind Value.ofJson)
  | .binary op left right => fun c => do
    let x ← ev.eval left c
    let y ← ev.eval right c
    ev.apply (op.operandType x y) op (.value x) (.value y)
  | .call function args => fun c =>
    ev.registry.call function ev.toSemantics (ev.arguments args) c

/-- Expressions as arguments that wait to be evaluated. -/
def arguments (ev : Evaluator m) : List Expr → List (Argument m)
  | [] => []
  | e :: rest => ⟨e, ev.eval e⟩ :: ev.arguments rest

end

/-- An expression as an argument that waits to be evaluated. -/
def argument (ev : Evaluator m) (e : Expr) : Argument m :=
  ⟨e, ev.eval e⟩

theorem arguments_eq_map (ev : Evaluator m) (es : List Expr) :
    ev.arguments es = es.map ev.argument := by
  induction es with
  | nil => rw [arguments, List.map_nil]
  | cons e rest ih => rw [arguments, List.map_cons, ih, argument]

theorem eval_literal (ev : Evaluator m) (v : Value) (c : Context) :
    ev.eval (.literal v) c = pure v := by
  rw [eval]

theorem eval_variable (ev : Evaluator m) (name : String) (c : Context) :
    ev.eval (.variable name) c = Outcome.ofExcept ((c.lookup name).bind Value.ofJson) := by
  rw [eval]

theorem eval_binary (ev : Evaluator m) (op : Operator) (left right : Expr) (c : Context) :
    ev.eval (.binary op left right) c = (do
      let x ← ev.eval left c
      let y ← ev.eval right c
      ev.apply (op.operandType x y) op (.value x) (.value y)) := by
  rw [eval]

theorem eval_call (ev : Evaluator m) (function : String) (args : List Expr) (c : Context) :
    ev.eval (.call function args) c =
      ev.registry.call function ev.toSemantics (args.map ev.argument) c := by
  rw [eval, arguments_eq_map]

/-- The value of a rule, turned into a type. -/
def evalAs (ev : Evaluator m) (e : Expr) (c : Context) (target : ScalarType) : Outcome m Value :=
  (ev.argument e).evalAs ev.toSemantics c target

/-- The value of a rule as a truth value. -/
def evalBool (ev : Evaluator m) (e : Expr) (c : Context) : Outcome m Bool :=
  (ev.argument e).evalBool ev.toSemantics c

/-- The value of a rule as text. -/
def evalString (ev : Evaluator m) (e : Expr) (c : Context) : Outcome m String :=
  (ev.argument e).evalString ev.toSemantics c

/-- A call with unevaluated arguments. -/
def call (ev : Evaluator m) (function : String) (args : List Expr) (c : Context) :
    Outcome m Value :=
  ev.registry.call function ev.toSemantics (ev.arguments args) c

/-- The evaluator that settings ask for, with a caster. -/
def ofSettings (settings : Settings) (caster : Caster m) : Evaluator m where
  caster := caster
  division := settings.division
  registry := if settings.builtins then .builtins else .empty

/-- An evaluator in words, for logs: its division policy and the names of its
    functions. -/
def describe (ev : Evaluator m) : String :=
  let policy := match ev.division with
    | .zero => "Zero"
    | .error => "Error"
  "ExpressionEvaluator \x7b binary: BinaryEvaluator \x7b division_by_zero: " ++ policy ++
    ", .. \x7d, registry: FunctionRegistry \x7b functions: [" ++
    ", ".intercalate (ev.registry.names.map Text.quoted) ++ "] \x7d \x7d"

/-- The evaluator with the usual settings and the caster for JSON data. -/
def standard : Evaluator m :=
  ofSettings {} Caster.json

end Evaluator

end Criteria
