import Criteria.Evaluator
import Criteria.Proofs.Requests
import Mathlib.Data.List.Forall2

/-!
# Evaluations in Step

Two evaluations of one rule that are compared all along.

Many laws of evaluation relate two runs: under two division policies, with and
without a record of the calls that are made, of a rule and of the same rule with
parts replaced. A handler gets its arguments unevaluated and decides itself
which of them to evaluate, so nothing can be said about the results of two runs
without following them through every handler. That is done once, here, for any
relation between computations that holds of equal results and of equal errors
and is kept when computations are put one after the other.

What remains for a law is a relation and three facts: that it is such a relation,
that the casts it is about correspond, and that operators do once their operands
are cast. The law then holds of every rule, and `eval_rel` says so.

Errors that operators raise are left out of what a relation has to respect. They
arise in `Semantics.combine` only, so a relation can still tell them from all
others.

## Main definitions

* `EvalError.ofOperator`: The errors that operators raise.
* `Correspondence`: A relation between computations in two monads.
* `Correspondence.Agrees`: Two semantics that correspond wherever a rule uses
  them.
* `Evaluator.withBuiltins`: The evaluator with the built-in functions.

## Theorems

* `Evaluator.eval_builtin`: A call of a built-in function.
* `Correspondence.castValue_rel`: Casts of values correspond if the calls of the
  caster do.
* `Correspondence.agrees_of_casts`: So do the uses that rules make of them.
* `Correspondence.call_rel_of_get?`: Calls correspond if what is found under their
  name does.
* `Correspondence.call_rel`: Calls of a built-in function correspond if its
  arguments do.
* `Correspondence.binary_rel`, `Correspondence.eval_call_rel`: Operators and calls
  in rules correspond if their operands and arguments do.
* `Correspondence.eval_rel`: Evaluations of a rule correspond.
* `Correspondence.evalBool_rel`, `Correspondence.evalString_rel`: So do its
  values as truth values and as text.
-/

namespace Criteria

/-- Whether an error is raised by an operator, and so nowhere else in a rule. -/
def EvalError.ofOperator : EvalError → Bool
  | .typeAssertion _ _ _ => true
  | .unsupportedOperator _ => true
  | .divisionByZero => true
  | _ => false

/-- A relation between computations in two monads that respects how evaluation
    puts computations together. -/
structure Correspondence (m n : Type → Type) [Monad m] [Monad n] where
  Rel : {α : Type} → Outcome m α → Outcome n α → Prop
  rel_pure : ∀ {α : Type} (a : α), Rel (pure a : Outcome m α) (pure a)
  rel_throw : ∀ {α : Type} (err : EvalError), err.ofOperator = false →
    Rel (throw err : Outcome m α) (throw err)
  rel_bind : ∀ {α β : Type} {x : Outcome m α} {y : Outcome n α} {f : α → Outcome m β}
    {g : α → Outcome n β}, Rel x y → (∀ a, Rel (f a) (g a)) → Rel (x >>= f) (y >>= g)

/-- The evaluator with a meaning of operators and the built-in functions. -/
def Evaluator.withBuiltins {m : Type → Type} [Monad m] (s : Semantics m) : Evaluator m :=
  ⟨s, .builtins⟩

/-- A call of a built-in function is what the function does with the arguments as they
    are. -/
theorem Evaluator.eval_builtin {m : Type → Type} [Monad m] (s : Semantics m) {function : String}
    {handler : Handler m} (hmem : (function, handler) ∈ Builtin.all) (args : List Expr)
    (c : Context) : (withBuiltins s).eval (.call function args) c =
      handler s (args.map (withBuiltins s).argument) c := by
  rw [eval_call]
  exact Registry.call_builtins hmem _ _ _

/-- Look-ups of a name in two lists that go by the same names. -/
theorem Bindings.lookup_forall₂ {α β : Type} {P : α → β → Prop} {l : List (String × α)}
    {l' : List (String × β)} (h : List.Forall₂ (fun e e' => e.1 = e'.1 ∧ P e.2 e'.2) l l')
    (key : String) : Option.Rel P (l.lookup key) (l'.lookup key) := by
  induction h with
  | nil => exact .none
  | @cons e e' _ _ hhead _ ih =>
      rw [Bindings.lookup_cons, Bindings.lookup_cons, ← hhead.1]
      split
      · exact .some hhead.2
      · exact ih

namespace Correspondence

variable {m n : Type → Type} [Monad m] [Monad n] (R : Correspondence m n)

/-- Two semantics that correspond wherever a rule uses them: where the value of an
    argument is wanted as a truth value or as text, and where an operator is
    applied at the type that its operands ask for. -/
structure Agrees (s : Semantics m) (s' : Semantics n) : Prop where
  coerce : ∀ (v : Value) (target : ScalarType), target = .bool ∨ target = .string →
    R.Rel (s.coerce v target) (s'.coerce v target)
  apply : ∀ (op : Operator) (x y : Value),
    R.Rel (s.apply (op.operandType x y) op (.value x) (.value y))
      (s'.apply (op.operandType x y) op (.value x) (.value y))

section Casts

variable {s : Semantics m} {s' : Semantics n}

/-- Casts of values correspond if the calls of the caster that they may lead to
    do. A double without a form as JSON data leads to none. -/
theorem castValue_rel (caster : Caster m) (caster' : Caster n)
    (hcast : ∀ j target, Requested j target →
      R.Rel (caster.cast j target) (caster'.cast j target))
    (v : Value) (target : ScalarType) (h : v.type = target ∨ v.type.WidensTo target) :
    R.Rel (caster.castValue v target) (caster'.castValue v target) := by
  rcases h with rfl | hwide
  · rw [Caster.castValue_self, Caster.castValue_self]
    exact R.rel_pure v
  -- Only a double may be without a form as JSON data.
  by_cases hfin : ∀ x, v = .float x → x.isFinite = true
  · rw [Caster.castValue_toJson caster v target hwide.ne hfin,
      Caster.castValue_toJson caster' v target hwide.ne hfin]
    exact hcast _ _ (v.requested_toJson target hwide hfin)
  · rcases Classical.not_forall.1 hfin with ⟨x, hx⟩
    rcases Classical.not_imp.1 hx with ⟨rfl, hinf⟩
    rw [Bool.not_eq_true] at hinf
    -- The casters are not asked, so both sides do the same.
    rw [Caster.castValue_infinite caster x target hwide.ne.symm hinf,
      Caster.castValue_infinite caster' x target hwide.ne.symm hinf]
    split
    · exact R.rel_pure _
    · exact R.rel_throw _ rfl

/-- Two semantics agree if the calls of their casters correspond and their
    operators do on operands that are cast already. -/
theorem agrees_of_casts
    (hcast : ∀ j target, Requested j target →
      R.Rel (s.caster.cast j target) (s'.caster.cast j target))
    (hcombine : ∀ kind op x y a b,
      R.Rel (s.combine kind op x y a b) (s'.combine kind op x y a b)) : R.Agrees s s' where
  coerce v target htarget := by
    have hrel := R.castValue_rel s.caster s'.caster hcast v target
    unfold Semantics.coerce
    by_cases htype : v.type = target
    · rw [if_pos htype, if_pos htype]
      exact R.rel_pure v
    · rw [if_neg htype, if_neg htype]
      -- To text and to a truth value everything else is widened.
      have hwide : v.type.WidensTo target := by
        rcases htarget with rfl | rfl <;> exact htype
      refine R.rel_bind (hrel (Or.inr hwide)) fun w => ?_
      split
      · exact R.rel_pure w
      · exact R.rel_throw _ rfl
  apply op x y := by
    have hrel := R.castValue_rel s.caster s'.caster hcast
    unfold Semantics.apply
    exact R.rel_bind (hrel x _ (op.widensTo_operandType_left x y)) fun a =>
      R.rel_bind (hrel y _ (op.widensTo_operandType_right x y)) fun b => hcombine _ op _ _ a b

end Casts

/-- Calls correspond if what is found under their name does. -/
theorem call_rel_of_get? {r : Registry m} {r' : Registry n} {function : String} {s : Semantics m}
    {s' : Semantics n} {as : List (Argument m)} {bs : List (Argument n)} {c c' : Context}
    (h : Option.Rel (fun (h : Handler m) (h' : Handler n) => R.Rel (h s as c) (h' s' bs c'))
      (r.get? function) (r'.get? function)) :
    R.Rel (r.call function s as c) (r'.call function s' bs c') := by
  unfold Registry.call
  generalize r.get? function = found at *
  generalize r'.get? function = found' at *
  cases h with
  | some hrel => exact hrel
  | none => exact R.rel_throw _ rfl

section Builtins

variable {s : Semantics m} {s' : Semantics n} (hs : R.Agrees s s') {c c' : Context}

include hs

theorem argument_evalAs_rel {a : Argument m} {b : Argument n} (h : R.Rel (a.eval c) (b.eval c'))
    (target : ScalarType) (htarget : target = .bool ∨ target = .string) :
    R.Rel (a.evalAs s c target) (b.evalAs s' c' target) := by
  unfold Argument.evalAs
  exact R.rel_bind h fun v => hs.coerce v target htarget

theorem argument_evalBool_rel {a : Argument m} {b : Argument n}
    (h : R.Rel (a.eval c) (b.eval c')) : R.Rel (a.evalBool s c) (b.evalBool s' c') := by
  unfold Argument.evalBool
  refine R.rel_bind (R.argument_evalAs_rel hs h .bool (Or.inl rfl)) fun v => ?_
  cases v with
  | bool b => exact R.rel_pure b
  | int n => exact R.rel_throw _ rfl
  | float x => exact R.rel_throw _ rfl
  | string t => exact R.rel_throw _ rfl

theorem argument_evalString_rel {a : Argument m} {b : Argument n}
    (h : R.Rel (a.eval c) (b.eval c')) : R.Rel (a.evalString s c) (b.evalString s' c') := by
  unfold Argument.evalString
  refine R.rel_bind (R.argument_evalAs_rel hs h .string (Or.inr rfl)) fun v => ?_
  cases v with
  | string t => exact R.rel_pure t
  | int n => exact R.rel_throw _ rfl
  | float x => exact R.rel_throw _ rfl
  | bool b => exact R.rel_throw _ rfl

variable {as : List (Argument m)} {bs : List (Argument n)}
  (has : List.Forall₂ (fun a b => R.Rel (a.eval c) (b.eval c')) as bs)

include has

/-- Scans of arguments go on to the same point. -/
theorem scan_rel (stop : Bool) :
    R.Rel (Builtin.scan stop s c as) (Builtin.scan stop s' c' bs) := by
  induction has with
  | nil => exact R.rel_pure _
  | cons h _ ih =>
      refine R.rel_bind (R.argument_evalBool_rel hs h) fun holds => ?_
      by_cases hstop : holds = stop
      · rw [if_pos hstop, if_pos hstop]
        exact R.rel_pure _
      · rw [if_neg hstop, if_neg hstop]
        exact ih

theorem conjunction_rel : R.Rel (Builtin.conjunction s as c) (Builtin.conjunction s' bs c') := by
  cases has with
  | nil => exact R.rel_throw _ rfl
  | cons h hrest =>
      rw [Builtin.conjunction_cons, Builtin.conjunction_cons]
      exact R.scan_rel hs (.cons h hrest) false

theorem disjunction_rel : R.Rel (Builtin.disjunction s as c) (Builtin.disjunction s' bs c') := by
  cases has with
  | nil => exact R.rel_throw _ rfl
  | cons h hrest =>
      rw [Builtin.disjunction_cons, Builtin.disjunction_cons]
      exact R.scan_rel hs (.cons h hrest) true

theorem negation_rel : R.Rel (Builtin.negation s as c) (Builtin.negation s' bs c') := by
  by_cases hlength : as.length = 1
  · rcases List.length_eq_one_iff.1 hlength with ⟨a, rfl⟩
    rcases has with _ | ⟨h, _ | _⟩
    exact R.rel_bind (R.argument_evalBool_rel hs h) fun holds => R.rel_pure _
  -- There are as many arguments on one side as on the other.
  · rw [Builtin.negation_arity s as c hlength, has.length_eq,
      Builtin.negation_arity s' bs c' (has.length_eq ▸ hlength)]
    exact R.rel_throw _ rfl

theorem conditional_rel : R.Rel (Builtin.conditional s as c) (Builtin.conditional s' bs c') := by
  by_cases hlength : as.length = 3
  · rcases List.length_eq_three.1 hlength with ⟨condition, yes, no, rfl⟩
    rcases has with _ | ⟨hcondition, _ | ⟨hyes, _ | ⟨hno, _ | _⟩⟩⟩
    refine R.rel_bind (R.argument_evalBool_rel hs hcondition) fun holds => ?_
    cases holds with
    | true => exact hyes
    | false => exact hno
  · rw [Builtin.conditional_arity s as c hlength, has.length_eq,
      Builtin.conditional_arity s' bs c' (has.length_eq ▸ hlength)]
    exact R.rel_throw _ rfl

theorem length_rel : R.Rel (Builtin.length s as c) (Builtin.length s' bs c') := by
  by_cases hlength : as.length = 1
  · rcases List.length_eq_one_iff.1 hlength with ⟨a, rfl⟩
    rcases has with _ | ⟨h, _ | _⟩
    exact R.rel_bind (R.argument_evalString_rel hs h) fun text => R.rel_pure _
  · rw [Builtin.length_arity s as c hlength, has.length_eq,
      Builtin.length_arity s' bs c' (has.length_eq ▸ hlength)]
    exact R.rel_throw _ rfl

theorem contains_rel : R.Rel (Builtin.contains s as c) (Builtin.contains s' bs c') := by
  by_cases hlength : as.length = 2
  · rcases List.length_eq_two.1 hlength with ⟨whole, part, rfl⟩
    rcases has with _ | ⟨hwhole, _ | ⟨hpart, _ | _⟩⟩
    exact R.rel_bind (R.argument_evalString_rel hs hwhole) fun whole =>
      R.rel_bind (R.argument_evalString_rel hs hpart) fun part => R.rel_pure _
  · rw [Builtin.contains_arity s as c hlength, has.length_eq,
      Builtin.contains_arity s' bs c' (has.length_eq ▸ hlength)]
    exact R.rel_throw _ rfl

/-- The built-in functions in two monads go by the same names and correspond one
    by one. -/
theorem all_rel : List.Forall₂ (fun f g => f.1 = g.1 ∧ R.Rel (f.2 s as c) (g.2 s' bs c'))
    Builtin.all Builtin.all :=
  .cons ⟨rfl, R.conjunction_rel hs has⟩ <| .cons ⟨rfl, R.disjunction_rel hs has⟩ <|
    .cons ⟨rfl, R.negation_rel hs has⟩ <| .cons ⟨rfl, R.conditional_rel hs has⟩ <|
    .cons ⟨rfl, R.length_rel hs has⟩ <| .cons ⟨rfl, R.contains_rel hs has⟩ .nil

/-- Look-ups of a built-in function find functions that correspond, or find nothing. -/
theorem get?_builtins_rel (function : String) :
    Option.Rel (fun (h : Handler m) (h' : Handler n) => R.Rel (h s as c) (h' s' bs c'))
      (Registry.builtins.get? function) (Registry.builtins.get? function) := by
  rw [Registry.get?_builtins, Registry.get?_builtins]
  exact Bindings.lookup_forall₂ (List.forall₂_reverse_iff.2 (R.all_rel hs has)) function

/-- Calls of a built-in function correspond if its arguments do. A name that no
    function has gives the same error on both sides. -/
theorem call_rel (function : String) :
    R.Rel (Registry.builtins.call function s as c) (Registry.builtins.call function s' bs c') :=
  R.call_rel_of_get? (R.get?_builtins_rel hs has function)

end Builtins

/-- The value of data, or the error that it has none. -/
theorem ofJson_rel (j : Json) :
    R.Rel (Outcome.ofExcept (Value.ofJson j)) (Outcome.ofExcept (Value.ofJson j)) := by
  cases hj : Value.ofJson j with
  | ok v => exact R.rel_pure v
  | error err =>
      refine R.rel_throw err ?_
      -- Data without a value is null, an array or an object.
      cases j with
      | null => cases hj; rfl
      | bool b => cases hj
      | number n => simp only [Value.ofJson] at hj; split at hj <;> cases hj
      | string t => cases hj
      | array items => cases hj; rfl
      | object members => cases hj; rfl

/-- A variable in a rule, of contexts that give it the same data. -/
theorem variable_rel (ev : Evaluator m) (ev' : Evaluator n) {c c' : Context} (name : String)
    (hname : c.get? name = c'.get? name) :
    R.Rel (ev.eval (.variable name) c) (ev'.eval (.variable name) c') := by
  simp only [Evaluator.eval_variable, Context.lookup, ← hname]
  cases c.get? name with
  | none => exact R.rel_throw _ rfl
  | some j => exact R.ofJson_rel j

/-- An operator in a rule, of operands that correspond. -/
theorem binary_rel {ev : Evaluator m} {ev' : Evaluator n}
    (hs : R.Agrees ev.toSemantics ev'.toSemantics) {c c' : Context} (op : Operator)
    {left right left' right' : Expr} (hleft : R.Rel (ev.eval left c) (ev'.eval left' c'))
    (hright : R.Rel (ev.eval right c) (ev'.eval right' c')) :
    R.Rel (ev.eval (.binary op left right) c) (ev'.eval (.binary op left' right') c') := by
  rw [Evaluator.eval_binary, Evaluator.eval_binary]
  exact R.rel_bind hleft fun x => R.rel_bind hright fun y => hs.apply op x y

section Evaluation

variable {s : Semantics m} {s' : Semantics n} (hs : R.Agrees s s') {c c' : Context}

include hs

/-- A call in a rule, of arguments that correspond one by one. -/
theorem eval_call_rel (function : String) {args args' : List Expr}
    (hargs : List.Forall₂ (fun a b => R.Rel ((Evaluator.withBuiltins s).eval a c)
      ((Evaluator.withBuiltins s').eval b c')) args args') :
    R.Rel ((Evaluator.withBuiltins s).eval (.call function args) c)
      ((Evaluator.withBuiltins s').eval (.call function args') c') := by
  rw [Evaluator.eval_call, Evaluator.eval_call]
  refine R.call_rel hs ?_ function
  rw [List.forall₂_map_left_iff, List.forall₂_map_right_iff]
  exact hargs

/-- Evaluations of a rule in one context correspond. -/
theorem eval_rel (e : Expr) (c : Context) :
    R.Rel ((Evaluator.withBuiltins s).eval e c) ((Evaluator.withBuiltins s').eval e c) := by
  induction e using Expr.induct with
  | literal v =>
      rw [Evaluator.eval_literal, Evaluator.eval_literal]
      exact R.rel_pure v
  | reference name => exact R.variable_rel _ _ name rfl
  | binary op left right hleft hright => exact R.binary_rel hs op hleft hright
  | call function args hargs =>
      exact R.eval_call_rel hs function (List.forall₂_same.2 hargs)

theorem evalBool_rel (e : Expr) (c : Context) :
    R.Rel ((Evaluator.withBuiltins s).evalBool e c) ((Evaluator.withBuiltins s').evalBool e c) :=
  R.argument_evalBool_rel hs (R.eval_rel hs e c)

theorem evalString_rel (e : Expr) (c : Context) :
    R.Rel ((Evaluator.withBuiltins s).evalString e c)
      ((Evaluator.withBuiltins s').evalString e c) :=
  R.argument_evalString_rel hs (R.eval_rel hs e c)

end Evaluation

end Correspondence

end Criteria
