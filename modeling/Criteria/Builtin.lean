import Criteria.Registry
import Criteria.Text.Search

/-!
# Built-in Functions

The functions every rule can call unless they are switched off.

`and` and `or` stop at the argument that decides, `if` evaluates the chosen
branch only, and a wrong number of arguments is noticed before anything is
evaluated.

## Main definitions

* `Builtin.conjunction`, `disjunction`, `negation`, `conditional`, `length`,
  `contains`: The functions.
* `Builtin.scan`: What `and` and `or` have in common.
* `Builtin.all`: Their names.
* `Registration`, `Registry.build`: Setting up a registry step by step.

## Theorems

* `Builtin.conjunction_cons`, `disjunction_cons`: `and` and `or` are scans that stop
  at opposite truth values.
* `Builtin.negation_arity`, `conditional_arity`, `length_arity`,
  `contains_arity`: A wrong number of arguments is an error whatever they are.
* `Registry.get?_builtins`: The registry of the built-in functions has these
  and no others.
* `Registry.call_builtins`: A call by the name of a built-in function is a call of
  that function.
* `Registry.call_builtins_cases`: Any other call is an error.
-/

namespace Criteria

namespace Builtin

variable {m : Type → Type} [Monad m]

/-- The error of a call with a wrong number of arguments. -/
def arityError (function : String) (fault : ArityFault) : EvalError :=
  .invalidArguments function fault.text

/-- Whether all arguments hold, up to the first that does not. -/
def allHold (s : Semantics m) (c : Context) : List (Argument m) → Outcome m Value
  | [] => pure (.bool true)
  | a :: rest => do
    if ← a.evalBool s c then allHold s c rest else pure (.bool false)

/-- Whether some argument holds, up to the first that does. -/
def someHolds (s : Semantics m) (c : Context) : List (Argument m) → Outcome m Value
  | [] => pure (.bool false)
  | a :: rest => do
    if ← a.evalBool s c then pure (.bool true) else someHolds s c rest

/-- The arguments taken for truth values one after the other, up to the first that is
    the one at which to stop. -/
def scan (stop : Bool) (s : Semantics m) (c : Context) : List (Argument m) → Outcome m Value
  | [] => pure (.bool !stop)
  | a :: rest => do
    let b ← a.evalBool s c
    if b = stop then pure (.bool stop) else scan stop s c rest

theorem allHold_eq_scan (s : Semantics m) (c : Context) (as : List (Argument m)) :
    allHold s c as = scan false s c as := by
  induction as with
  | nil => rfl
  | cons a rest ih =>
      rw [allHold, scan, ih]
      refine bind_congr fun b => ?_
      cases b with
      | true => rfl
      | false => rfl

theorem someHolds_eq_scan (s : Semantics m) (c : Context) (as : List (Argument m)) :
    someHolds s c as = scan true s c as := by
  induction as with
  | nil => rfl
  | cons a rest ih =>
      rw [someHolds, scan, ih]

/-- `and(a, b, …)`, of at least one argument. -/
def conjunction : Handler m
  | _, [], _ => throw (arityError "and" .noArguments)
  | s, arguments, c => allHold s c arguments

/-- `or(a, b, …)`, of at least one argument. -/
def disjunction : Handler m
  | _, [], _ => throw (arityError "or" .noArguments)
  | s, arguments, c => someHolds s c arguments

/-- `not(a)`. -/
def negation : Handler m
  | s, [a], c => do return .bool (!(← a.evalBool s c))
  | _, arguments, _ => throw (arityError "not" (.expected 1 arguments.length))

/-- `if(condition, then, else)`. -/
def conditional : Handler m
  | s, [condition, yes, no], c => do
    if ← condition.evalBool s c then yes.eval c else no.eval c
  | _, arguments, _ => throw (arityError "if" (.expected 3 arguments.length))

/-- `len(a)`: the number of characters of a text. -/
def length : Handler m
  | s, [a], c => do return .int (Int64.ofNat (← a.evalString s c).length)
  | _, arguments, _ => throw (arityError "len" (.expected 1 arguments.length))

/-- `contains(text, part)`: whether the part occurs in the text. -/
def contains : Handler m
  | s, [whole, part], c => do
    let whole ← whole.evalString s c
    let part ← part.evalString s c
    return .bool (Text.occursIn part.toList whole.toList)
  | _, arguments, _ => throw (arityError "contains" (.expected 2 arguments.length))

theorem conjunction_cons (s : Semantics m) (a : Argument m) (rest : List (Argument m))
    (c : Context) : conjunction s (a :: rest) c = scan false s c (a :: rest) :=
  allHold_eq_scan s c (a :: rest)

theorem disjunction_cons (s : Semantics m) (a : Argument m) (rest : List (Argument m))
    (c : Context) : disjunction s (a :: rest) c = scan true s c (a :: rest) :=
  someHolds_eq_scan s c (a :: rest)

theorem negation_arity (s : Semantics m) (arguments : List (Argument m)) (c : Context)
    (h : arguments.length ≠ 1) :
    negation s arguments c = throw (arityError "not" (.expected 1 arguments.length)) := by
  rcases arguments with _ | ⟨a, _ | ⟨b, rest⟩⟩
  · rfl
  · exact absurd rfl h
  · rfl

theorem conditional_arity (s : Semantics m) (arguments : List (Argument m)) (c : Context)
    (h : arguments.length ≠ 3) :
    conditional s arguments c = throw (arityError "if" (.expected 3 arguments.length)) := by
  rcases arguments with _ | ⟨a, _ | ⟨b, _ | ⟨d, _ | ⟨e, rest⟩⟩⟩⟩
  · rfl
  · rfl
  · rfl
  · exact absurd rfl h
  · rfl

theorem length_arity (s : Semantics m) (arguments : List (Argument m)) (c : Context)
    (h : arguments.length ≠ 1) :
    length s arguments c = throw (arityError "len" (.expected 1 arguments.length)) := by
  rcases arguments with _ | ⟨a, _ | ⟨b, rest⟩⟩
  · rfl
  · exact absurd rfl h
  · rfl

theorem contains_arity (s : Semantics m) (arguments : List (Argument m)) (c : Context)
    (h : arguments.length ≠ 2) :
    contains s arguments c = throw (arityError "contains" (.expected 2 arguments.length)) := by
  rcases arguments with _ | ⟨a, _ | ⟨b, _ | ⟨d, rest⟩⟩⟩
  · rfl
  · rfl
  · exact absurd rfl h
  · rfl

/-- The built-in functions by name. -/
def all : List (String × Handler m) :=
  [("and", conjunction), ("or", disjunction), ("not", negation), ("if", conditional),
    ("len", length), ("contains", contains)]

end Builtin

/-- A step in setting up a registry: one function, or all that are built in. -/
inductive Registration (m : Type → Type) where
  | function (name : String) (h : Handler m)
  | builtins

namespace Registry

variable {m : Type → Type} [Monad m]

/-- A registry with the built-in functions, in place of what had their names
    before. -/
def registerBuiltins (r : Registry m) : Registry m :=
  Builtin.all.foldl (fun r f => r.register f.1 f.2) r

/-- A registry after one more step. -/
def apply (r : Registry m) : Registration m → Registry m
  | .function name h => r.register name h
  | .builtins => r.registerBuiltins

/-- The registry that steps lead to from the empty one. -/
def build (steps : List (Registration m)) : Registry m :=
  steps.foldl apply empty

/-- The registry of the built-in functions. -/
def builtins : Registry m :=
  build [.builtins]

theorem get?_builtins (name : String) :
    (builtins : Registry m).get? name = Builtin.all.reverse.lookup name := by
  simp only [builtins, build, List.foldl, apply, registerBuiltins, Builtin.all, register, get?,
    Bindings.get?_insert, empty, Bindings.get?_empty, List.reverse_cons, List.reverse_nil,
    List.nil_append, List.cons_append, Bindings.lookup_cons, List.lookup_nil]

theorem call_builtins {name : String} {h : Handler m} (hmem : (name, h) ∈ Builtin.all)
    (s : Semantics m) (arguments : List (Argument m)) (c : Context) :
    builtins.call name s arguments c = h s arguments c := by
  rw [call, get?_builtins]
  simp only [Builtin.all, List.mem_cons, Prod.mk.injEq, List.not_mem_nil, or_false] at hmem
  rcases hmem with ⟨rfl, rfl⟩ | ⟨rfl, rfl⟩ | ⟨rfl, rfl⟩ | ⟨rfl, rfl⟩ | ⟨rfl, rfl⟩ | ⟨rfl, rfl⟩ <;> rfl

theorem mem_all_of_get?_builtins {name : String} {h : Handler m}
    (hget : builtins.get? name = some h) : (name, h) ∈ Builtin.all := by
  rw [get?_builtins, List.lookup_eq_some_iff] at hget
  rcases hget with ⟨before, after, hall, _⟩
  rw [← List.mem_reverse, hall]
  exact List.mem_append_right before List.mem_cons_self

theorem call_builtins_cases (name : String) (s : Semantics m) (arguments : List (Argument m))
    (c : Context) :
    (∃ h, (name, h) ∈ Builtin.all ∧ builtins.call name s arguments c = h s arguments c) ∨
      builtins.call name s arguments c = throw (.unknownFunction name) := by
  unfold call
  cases hget : (builtins : Registry m).get? name with
  | some h => exact Or.inl ⟨h, mem_all_of_get?_builtins hget, rfl⟩
  | none => exact Or.inr rfl

end Registry

end Criteria
