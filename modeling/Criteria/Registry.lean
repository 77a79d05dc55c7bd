import Criteria.Context
import Criteria.Expr.Basic
import Criteria.Operation

/-!
# Functions

Functions by name, called with arguments that are not evaluated yet.

A handler decides which of its arguments to evaluate, in which order and how
often. It is given each argument as the expression it is and as a suspended
evaluation of it. What else it can do is up to the monad. In most it can
evaluate nothing else, and every rule terminates if its handlers do; a handler
that is a dialogue may ask for the value of any rule.

## Main definitions

* `Argument`: An argument that waits to be evaluated.
* `Argument.evalAs`, `evalBool`, `evalString`: Its value at a type.
* `Handler`: What a function does.
* `Registry`: Functions by name, with `register` and `call`.
-/

namespace Criteria

/-- An argument of a call, as it is written and as a suspended evaluation. -/
structure Argument (m : Type → Type) where
  expr : Expr
  eval : Context → Outcome m Value

namespace Argument

variable {m : Type → Type} [Monad m]

/-- The value of an argument, turned into a type. -/
def evalAs (s : Semantics m) (a : Argument m) (c : Context) (target : ScalarType) :
    Outcome m Value := do
  let v ← a.eval c
  s.coerce v target

/-- The value of an argument as a truth value. -/
def evalBool (s : Semantics m) (a : Argument m) (c : Context) : Outcome m Bool := do
  match ← a.evalAs s c .bool with
  | .bool b => pure b
  | v => throw (.coercion v.text .bool Refusal.notBool.text)

/-- The value of an argument as text. -/
def evalString (s : Semantics m) (a : Argument m) (c : Context) : Outcome m String := do
  match ← a.evalAs s c .string with
  | .string t => pure t
  | v => throw (.coercion v.text .string Refusal.notString.text)

end Argument

/-- What a function does with its arguments in a context. -/
abbrev Handler (m : Type → Type) : Type :=
  Semantics m → List (Argument m) → Context → Outcome m Value

/-- Functions by name. -/
structure Registry (m : Type → Type) where
  functions : Bindings (Handler m)

namespace Registry

variable {m : Type → Type}

/-- The registry without functions. -/
def empty : Registry m := ⟨Bindings.empty⟩

instance : Inhabited (Registry m) := ⟨empty⟩

/-- A registry with one more function, in place of the one that had its name
    before. -/
def register (r : Registry m) (name : String) (h : Handler m) : Registry m :=
  ⟨r.functions.insert name h⟩

/-- The function of a name. -/
def get? (r : Registry m) (name : String) : Option (Handler m) :=
  r.functions.get? name

/-- Whether there is a function of this name. -/
def contains (r : Registry m) (name : String) : Bool :=
  r.functions.contains name

/-- The names of all functions, in ascending order. -/
def names (r : Registry m) : List String :=
  r.functions.names

/-- How many functions there are. -/
def size (r : Registry m) : Nat :=
  r.functions.size

/-- Whether there are no functions. -/
def isEmpty (r : Registry m) : Bool :=
  r.size == 0

/-- A call: the function of that name is given the arguments as they are, and
    its result is the result. -/
def call [Monad m] (r : Registry m) (name : String) (s : Semantics m)
    (arguments : List (Argument m)) (c : Context) : Outcome m Value :=
  match r.get? name with
  | some h => h s arguments c
  | none => throw (.unknownFunction name)

end Registry

end Criteria
