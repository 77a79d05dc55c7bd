import Criteria.Evaluator

/-!
# Functions with the Evaluator at Hand

Functions that may ask for the value of any rule.

A handler is given its arguments as suspended evaluations, and by its type it can
evaluate nothing else. The functions that come with the evaluator need no more. One that
is supplied from outside may: it may look at its arguments as the expressions they are,
put other rules together, and have them evaluated in contexts of its own. `Dialogue` is
the monad of such computations, and a handler in this monad is such a function: an argument
is a question about one expression, and every other expression can be asked about too. A
function that hands its arguments on to another one asks for a call of that.

An evaluator whose functions are of this kind works level by level. An activation deals
with the root of a rule and asks for the rest, and every question starts an activation.
Nothing keeps functions from asking for their own call, so evaluation has a budget for
activations within one another.

## Main definitions

* `Dialogue`: A computation that may ask for the values of rules.
* `Argument.asked`: An argument as a question.
* `Evaluator.activation`: The evaluation of a rule one level deep.
* `Metered`: How an evaluation with a budget went.
* `Dialogue.metered`: A dialogue answered by such evaluations.
* `Evaluator.evalWithin`: Evaluation with a budget.
* `Evaluator.runWithin`: A dialogue answered by an evaluator with a budget.
-/

namespace Criteria

/-- A computation that may ask for the value of a rule in a context and goes on with how
    the evaluation ended. Between questions it may look at a state and change it. -/
inductive Dialogue (σ α : Type) where
  | done (a : α)
  | act (step : σ → σ) (next : σ → Dialogue σ α)
  | ask (e : Expr) (c : Context) (next : Except EvalError Value → Dialogue σ α)

namespace Dialogue

variable {σ α β : Type}

/-- Two dialogues, one after the other. -/
def bind : Dialogue σ α → (α → Dialogue σ β) → Dialogue σ β
  | .done a, f => f a
  | .act step next, f => .act step fun s => (next s).bind f
  | .ask e c next, f => .ask e c fun r => (next r).bind f

instance : Monad (Dialogue σ) where
  pure := .done
  bind := bind

/-- A computation that asks nothing. -/
def lift (x : StateM σ α) : Dialogue σ α :=
  .act (fun s => (x.run s).2) fun s => .done (x.run s).1

end Dialogue

variable {σ : Type}

/-- A meaning of operators for dialogues. It asks nothing. -/
def Semantics.lifted (s : Semantics (StateM σ)) : Semantics (Dialogue σ) :=
  ⟨⟨fun j target => ExceptT.mk (Dialogue.lift (s.caster.cast j target).run)⟩, s.division⟩

/-- An argument as a question about an expression. -/
def Argument.asked (e : Expr) : Argument (Dialogue σ) :=
  ⟨e, fun c => ExceptT.mk (.ask e c .done)⟩

/-- One activation of the evaluator. It deals with the root of a rule and asks for the value
    of everything below, or has functions ask. -/
def Evaluator.activation (ev : Evaluator (Dialogue σ)) :
    Expr → Context → Outcome (Dialogue σ) Value
  | .literal v, _ => pure v
  | .variable name, c => Outcome.ofExcept ((c.lookup name).bind Value.ofJson)
  | .binary op left right, c => do
    let x ← (Argument.asked left).eval c
    let y ← (Argument.asked right).eval c
    ev.apply (op.operandType x y) op (.value x) (.value y)
  | .call function args, c => ev.registry.call function ev.toSemantics (args.map .asked) c

/-- How an evaluation with a budget went: its result unless it was cut off, the greatest
    number of activations in progress at once, and the state that is left. -/
structure Metered (σ α : Type) where
  result : Option α
  depth : Nat
  state : σ

namespace Metered

variable {α β : Type}

/-- An evaluation and what follows it unless it was cut off. They are in progress one after
    the other, so the deeper one counts. -/
def andThen (x : Metered σ α) (rest : α → σ → Metered σ β) : Metered σ β :=
  match x.result with
  | none => ⟨none, x.depth, x.state⟩
  | some a => { rest a x.state with depth := max x.depth (rest a x.state).depth }

/-- An evaluation inside one more activation. -/
def enclosed (x : Metered σ α) : Metered σ α :=
  { x with depth := x.depth + 1 }

end Metered

/-- A dialogue that evaluations with a budget answer. It is cut off with the first of
    these that is. -/
def Dialogue.metered {α : Type}
    (eval : Expr → Context → σ → Metered σ (Except EvalError Value)) :
    Dialogue σ α → σ → Metered σ α
  | .done a, s => ⟨some a, 0, s⟩
  | .act step next, s => (next s).metered eval (step s)
  | .ask e c next, s => (eval e c s).andThen fun r s' => (next r).metered eval s'

namespace Evaluator

/-- Evaluation with a budget. It allows so many activations within one another, the one
    of the rule itself included, and is cut off when there would be more. -/
def evalWithin (ev : Evaluator (Dialogue σ)) :
    Nat → Expr → Context → σ → Metered σ (Except EvalError Value)
  | 0, _, _, s => ⟨none, 0, s⟩
  | budget + 1, e, c, s => ((ev.activation e c).run.metered (ev.evalWithin budget) s).enclosed

/-- A computation that may ask, such as a call from outside a rule or the value of a rule at
    a type, with the evaluator to answer it. -/
def runWithin {α : Type} (ev : Evaluator (Dialogue σ)) (budget : Nat)
    (x : Outcome (Dialogue σ) α) : σ → Metered σ (Except EvalError α) :=
  x.run.metered (ev.evalWithin budget)

end Evaluator

end Criteria
