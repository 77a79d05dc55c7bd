import Criteria.Proofs.Endings
import Criteria.Proofs.Laziness

/-!
# Interchangeable Rules

Rules that can stand for each other, and a law about conditionals.

Two rules are interchangeable if evaluation cannot tell them apart: in every context,
with every caster and every policy they have the same value or the same error, and the
caster is called with the same data and targets in the same order. Equations between
evaluations that hold in every monad give this at once, the calls being effects like any
other, and interchangeable parts may be replaced anywhere in a rule.

The law is about the place of a rule that is evaluated before all the rest of it. One
comes to it from the root by going to the left operand of an operator, or to the first
argument of a function, any number of times. `Spine` is a rule with a hole at such a
place. What a rule on a spine does is to evaluate what stands in the hole and to go on as
with the literal of its value, and this is all there is to know about spines: a failure in
the hole is the failure of the whole, and a conditional in the hole can be lifted to the
root, with the rest of the rule in each of its branches.

## Main definitions

* `Expr.Interchangeable`: Rules that evaluation cannot tell apart.
* `Argument.GoesFirst`: What evaluates an argument before it does anything else.
* `Spine`, `Spine.fill`: Rules with a hole at a place that is evaluated first.

## Theorems

* `Expr.Interchangeable.of_eval`: Equations in every monad make rules interchangeable.
* `Expr.Interchangeable.of_rewritten`: Interchangeable parts may be replaced anywhere.
* `Builtin.goesFirst_call`: Built-in functions evaluate their first argument first.
* `Evaluator.eval_fill`: A rule on a spine goes on from the value in the hole.
* `Evaluator.conditional_lifted`: Conditionals are lifted out of spines.
-/

namespace Criteria

open Evaluator (withBuiltins)

namespace Expr

/-- Whether evaluation cannot tell two rules apart. In every monad that a caster may be
    computed in they are the same computation, and from every state of a caster that has
    one it is called in the same way. -/
structure Interchangeable (e e' : Expr) : Prop where
  result : ∀ {m : Type → Type} [Monad m] [LawfulMonad m] (s : Semantics m) (c : Context),
    (withBuiltins s).eval e c = (withBuiltins s).eval e' c
  calls : ∀ {σ : Type} (s : Semantics (StateM σ)) (c : Context) (init : σ),
    ((withBuiltins s.recorded).eval e c).calls init =
      ((withBuiltins s.recorded).eval e' c).calls init

variable {e e' : Expr}

/-- The record of calls is kept in a monad too, so nothing is to be shown of calls. -/
theorem Interchangeable.of_eval
    (h : ∀ {m : Type → Type} [Monad m] [LawfulMonad m] (s : Semantics m) (c : Context),
      (withBuiltins s).eval e c = (withBuiltins s).eval e' c) : Interchangeable e e' :=
  ⟨h, fun s c init => congrArg (Outcome.calls · init) (h s.recorded c)⟩

/-- Interchangeable parts of a rule may be replaced, at any depth and any number of them
    at once. -/
theorem Interchangeable.of_rewritten (h : e.Rewritten Interchangeable e') :
    Interchangeable e e' :=
  .of_eval fun s c => (Correspondence.equality _).rewritten_rel
    (Correspondence.equality_agrees s) c _ (fun _ _ hparts => hparts.result s c) h

end Expr

section First

variable {m : Type → Type} [Monad m]

/-- Whether what is done with an argument is to evaluate it first of all, and then to go
    on from its value. -/
def Argument.GoesFirst (c : Context) {α : Type} (f : Argument m → Outcome m α) : Prop :=
  ∃ next : Value → Outcome m α, ∀ a : Argument m, f a = a.eval c >>= next

variable [LawfulMonad m] {c : Context} {α β : Type}

/-- Whatever comes afterwards comes after the argument as well. -/
theorem Argument.GoesFirst.bind {f : Argument m → Outcome m α} (h : GoesFirst c f)
    (g : α → Outcome m β) : GoesFirst c fun a => f a >>= g := by
  rcases h with ⟨next, hnext⟩
  refine ⟨fun v => next v >>= g, fun a => ?_⟩
  simp only [hnext, bind_assoc]

theorem Argument.goesFirst_evalBool (s : Semantics m) :
    GoesFirst c fun a : Argument m => a.evalBool s c :=
  GoesFirst.bind ⟨fun v => s.coerce v .bool, fun _ => rfl⟩ _

theorem Argument.goesFirst_evalString (s : Semantics m) :
    GoesFirst c fun a : Argument m => a.evalString s c :=
  GoesFirst.bind ⟨fun v => s.coerce v .string, fun _ => rfl⟩ _

/-- A built-in function that is given a correct number of arguments evaluates the first of
    them first. -/
theorem Builtin.goesFirst_handler (s : Semantics m) {function : String} {handler : Handler m}
    (hmem : (function, handler) ∈ all) {rest : List (Argument m)}
    (arity : arityFault? function (rest.length + 1) = none) :
    Argument.GoesFirst c fun a => handler s (a :: rest) c := by
  simp only [all, List.mem_cons, Prod.mk.injEq, List.not_mem_nil, or_false] at hmem
  rcases hmem with ⟨rfl, rfl⟩ | ⟨rfl, rfl⟩ | ⟨rfl, rfl⟩ | ⟨rfl, rfl⟩ | ⟨rfl, rfl⟩ | ⟨rfl, rfl⟩
  · simp only [conjunction_cons, scan]
    exact (Argument.goesFirst_evalBool s).bind _
  · simp only [disjunction_cons, scan]
    exact (Argument.goesFirst_evalBool s).bind _
  · have hrest : rest = [] := by simpa [arityFault?] using arity
    subst hrest
    exact (Argument.goesFirst_evalBool s).bind _
  · have hrest : rest.length = 2 := by simpa [arityFault?] using arity
    rcases List.length_eq_two.1 hrest with ⟨yes, no, rfl⟩
    exact (Argument.goesFirst_evalBool s).bind _
  · have hrest : rest = [] := by simpa [arityFault?] using arity
    subst hrest
    exact (Argument.goesFirst_evalString s).bind _
  · have hrest : rest.length = 1 := by simpa [arityFault?] using arity
    rcases List.length_eq_one_iff.1 hrest with ⟨part, rfl⟩
    exact (Argument.goesFirst_evalString s).bind _

theorem Builtin.goesFirst_call (s : Semantics m) {function : String} (known : function ∈ names)
    {rest : List (Argument m)} (arity : arityFault? function (rest.length + 1) = none) :
    Argument.GoesFirst c fun a => Registry.builtins.call function s (a :: rest) c := by
  rw [← names_eq (m := m), List.mem_map] at known
  rcases known with ⟨⟨name, handler⟩, hmem, rfl⟩
  simp only [Registry.call_builtins hmem]
  exact goesFirst_handler s hmem arity

end First

/-- A rule with a hole at a place that is evaluated before all the rest. The way from the
    root to the hole goes through left operands and through first arguments of built-in
    functions, with as many arguments as these take. -/
inductive Spine where
  | hole
  | operand (op : Operator) (inner : Spine) (right : Expr)
  | argument (function : String) (inner : Spine) (rest : List Expr)
      (known : function ∈ Builtin.names)
      (arity : Builtin.arityFault? function (rest.length + 1) = none)

/-- The rule with something in the hole. -/
def Spine.fill (e : Expr) : Spine → Expr
  | .hole => e
  | .operand op inner right => .binary op (inner.fill e) right
  | .argument function inner rest _ _ => .call function (inner.fill e :: rest)

namespace Evaluator

/-- A rule on a spine evaluates what is in the hole, and goes on as if the literal of its
    value stood there. -/
theorem eval_fill {m : Type → Type} [Monad m] [LawfulMonad m] (s : Semantics m) (c : Context)
    (spine : Spine) (e : Expr) :
    (withBuiltins s).eval (spine.fill e) c = (do
      let v ← (withBuiltins s).eval e c
      (withBuiltins s).eval (spine.fill (.literal v)) c) := by
  induction spine with
  | hole => simp only [Spine.fill, eval_literal, bind_pure]
  | operand op inner right ih =>
      simp only [Spine.fill, eval_binary]
      rw [ih, bind_assoc]
  | argument function inner rest known arity ih =>
      have harity : Builtin.arityFault? function
          ((rest.map (withBuiltins s).argument).length + 1) = none := by
        rw [List.length_map]
        exact arity
      rcases Builtin.goesFirst_call (c := c) s known harity with ⟨next, hnext⟩
      have hcall : ∀ first : Expr, (withBuiltins s).eval (.call function (first :: rest)) c =
          (withBuiltins s).eval first c >>= next := fun first => by
        rw [eval_call]
        exact hnext _
      simp only [Spine.fill, hcall]
      rw [ih, bind_assoc]

/-- A conditional at a place that is evaluated first can be lifted to the root, and the
    rule around it goes into both branches. Whatever happens, the two rules have the same
    value or the same error and call the caster in the same way: the condition is evaluated
    once and first in both, and the rest is there only after the branch. And where a rule
    fails, everything with this rule at a place that is evaluated first fails with its
    error, and leaves the caster in the state in which the failure left it. -/
theorem conditional_lifted (spine : Spine) (condition yes no : Expr) :
    Expr.Interchangeable (spine.fill (.call "if" [condition, yes, no]))
      (.call "if" [condition, spine.fill yes, spine.fill no]) ∧
    ∀ {σ : Type} (s : Semantics (StateM σ)) (c : Context) (e : Expr) (err : EvalError)
      (init final : σ), ((withBuiltins s).eval e c).run.run init = (.error err, final) →
        ((withBuiltins s).eval (spine.fill e) c).run.run init = (.error err, final) := by
  refine ⟨.of_eval fun s c => ?_, fun s c e err init final hfail => ?_⟩
  · rw [eval_fill, eval_conditional, eval_conditional, bind_assoc]
    refine bind_congr fun b => ?_
    cases b with
    | true => simp only [if_true, ← eval_fill]
    | false => simp only [Bool.false_eq_true, if_false, ← eval_fill]
  · -- What comes after the failure is not run.
    rw [eval_fill, ExceptT.run_bind, StateT.run_bind, hfail]
    rfl

/-- In `not(len(□) && known)` the text `"1"` of a flag is cast to a truth value, then the
    length of the branch it chooses, and then there is nothing left to cast. An unbound
    variable in the hole is the error of the whole. -/
theorem conditional_lifted_flag :
    let spine : Spine := .argument "not" (.operand .and
      (.argument "len" .hole [] (by decide) (by decide)) (.literal (.bool true))) []
      (by decide) (by decide)
    let c := Context.empty.set "flag" (.string "1")
    let s : Semantics (StateM Unit) := ⟨Caster.json, .zero⟩
    let e : Expr := .call "if" [.variable "flag", .literal (.string "a"), .variable "x"]
    let e' : Expr := .call "if" [.variable "flag", spine.fill (.literal (.string "a")),
      spine.fill (.variable "x")]
    ((withBuiltins s.recorded).eval (spine.fill e) c).calls () =
        [(.string "1", .bool), (.number (.ofInt64 1), .bool)] ∧
      ((withBuiltins s.recorded).eval e' c).calls () =
        [(.string "1", .bool), (.number (.ofInt64 1), .bool)] ∧
      ((withBuiltins s).eval (spine.fill (.variable "x")) c).run.run () =
        (.error (.variableNotFound "x"), ()) := by
  intro spine c s e e'
  have hlift := conditional_lifted spine (.variable "flag") (.literal (.string "a"))
    (.variable "x")
  have hcalls : ((withBuiltins s.recorded).eval (spine.fill e) c).calls () =
      [(.string "1", .bool), (.number (.ofInt64 1), .bool)] := rfl
  have hfail : ((withBuiltins s).eval (.variable "x") c).run.run () =
      (.error (.variableNotFound "x"), ()) := rfl
  exact ⟨hcalls, (hlift.1.calls s c ()).symm.trans hcalls, hlift.2 s c _ _ () () hfail⟩

end Evaluator

end Criteria
