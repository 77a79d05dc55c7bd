import Criteria.Proofs.Correspondence

/-!
# Rewriting

Rules with parts replaced by others of the same value.

A handler is given its arguments as they are written, so a function could look at
the shape of an argument and tell two of the same value apart. The built-in
functions do not: what a rule evaluates to depends on its parts only through what
these evaluate to. Any number of occurrences can be replaced at once, wherever
they stand, arguments that are never evaluated included, and a part that fails
may be replaced by another that fails in the same way.

Two rewritings that this allows are written out as functions. Constants can be
folded, every part that has a value giving way to that value, and variables can
be inlined. `Expr.rewrite` does both, from the root downward: below a part that
is replaced there is nothing left to do.

## Main definitions

* `Expr.Rewritten`: One rule is another with occurrences of parts replaced.
* `Expr.rewrite`: A rule with every part replaced that a function replaces.
* `Evaluator.literal?`: The literal for a rule that has a value.
* `Context.literal?`: The literal for a variable that has a value.
* `Correspondence.equality`: Equality as a relation between computations.

## Theorems

* `Expr.rewritten_rewrite`: What `rewrite` does is a rewriting.
* `Correspondence.rewritten_rel`: Evaluations of a rule and of a rewriting of it
  correspond if those of the parts do.
* `Evaluator.eval_rewritten`: A rule keeps its value, and the calls of the caster
  that lead to it, in every monad.
* `Evaluator.rewriting_keeps_value`: The same for casters without effects, with
  folding and inlining.
-/

namespace Criteria

namespace Expr

/-- The second rule is the first one with occurrences of parts replaced by rules
    that the relation allows for them. -/
inductive Rewritten (P : Expr → Expr → Prop) : Expr → Expr → Prop where
  | same (e : Expr) : Rewritten P e e
  | replaced {e e' : Expr} (h : P e e') : Rewritten P e e'
  | binary (op : Operator) {left left' right right' : Expr} (hleft : Rewritten P left left')
      (hright : Rewritten P right right') :
      Rewritten P (.binary op left right) (.binary op left' right')
  | call (function : String) {args args' : List Expr} (hlength : args.length = args'.length)
      (hargs : ∀ p ∈ args.zip args', Rewritten P p.1 p.2) :
      Rewritten P (.call function args) (.call function args')

/-- The arguments of a call are rewritten one by one. -/
theorem Rewritten.arguments {P : Expr → Expr → Prop} (function : String) {args args' : List Expr}
    (h : List.Forall₂ (Rewritten P) args args') :
    Rewritten P (.call function args) (.call function args') := by
  rcases List.forall₂_iff_zip.1 h with ⟨hlength, hzip⟩
  exact .call function hlength fun p hp => hzip hp

mutual

/-- A rule with every part replaced for which the function has something else.
    Parts of what is replaced are not looked at. -/
def rewrite (f : Expr → Option Expr) : Expr → Expr
  | .literal v => (f (.literal v)).getD (.literal v)
  | .variable name => (f (.variable name)).getD (.variable name)
  | .binary op left right =>
    (f (.binary op left right)).getD (.binary op (left.rewrite f) (right.rewrite f))
  | .call function args =>
    (f (.call function args)).getD (.call function (rewriteArguments f args))

/-- The arguments of a call with their parts replaced. -/
def rewriteArguments (f : Expr → Option Expr) : List Expr → List Expr
  | [] => []
  | e :: rest => e.rewrite f :: rewriteArguments f rest

end

theorem rewriteArguments_eq_map (f : Expr → Option Expr) (args : List Expr) :
    rewriteArguments f args = args.map (rewrite f) := by
  induction args with
  | nil => rw [rewriteArguments, List.map_nil]
  | cons e rest ih => rw [rewriteArguments, List.map_cons, ih]

/-- What `rewrite` does is a rewriting, by whatever relation the function keeps
    to. -/
theorem rewritten_rewrite (P : Expr → Expr → Prop) (f : Expr → Option Expr)
    (hf : ∀ e e', f e = some e' → P e e') (e : Expr) : e.Rewritten P (e.rewrite f) := by
  induction e using induct with
  | literal v =>
      rw [rewrite]
      cases h : f (.literal v) with
      | none => exact .same _
      | some e' => exact .replaced (hf _ _ h)
  | reference name =>
      rw [rewrite]
      cases h : f (.variable name) with
      | none => exact .same _
      | some e' => exact .replaced (hf _ _ h)
  | binary op left right hleft hright =>
      rw [rewrite]
      cases h : f (.binary op left right) with
      | none => exact .binary op hleft hright
      | some e' => exact .replaced (hf _ _ h)
  | call function args hargs =>
      rw [rewrite]
      cases h : f (.call function args) with
      | none =>
          rw [rewriteArguments_eq_map, Option.getD_none]
          exact .arguments function (List.forall₂_map_right_iff.2 (List.forall₂_same.2 hargs))
      | some e' => exact .replaced (hf _ _ h)

end Expr

/-- Equality of computations is a relation of the kind. -/
def Correspondence.equality (m : Type → Type) [Monad m] : Correspondence m m where
  Rel x y := x = y
  rel_pure _ := rfl
  rel_throw _ _ := rfl
  rel_bind hx hf := by rw [hx, funext hf]

theorem Correspondence.equality_agrees {m : Type → Type} [Monad m] (s : Semantics m) :
    (equality m).Agrees s s :=
  ⟨fun _ _ _ => rfl, fun _ _ _ => rfl⟩

/-- Evaluations of a rule and of a rewriting of it correspond if those of the
    replaced parts do. -/
theorem Correspondence.rewritten_rel {m n : Type → Type} [Monad m] [Monad n]
    (R : Correspondence m n) {s : Semantics m} {s' : Semantics n} (hs : R.Agrees s s')
    (c : Context) (P : Expr → Expr → Prop)
    (hP : ∀ e e', P e e' → R.Rel ((Evaluator.withBuiltins s).eval e c)
      ((Evaluator.withBuiltins s').eval e' c))
    {e e' : Expr} (h : e.Rewritten P e') :
    R.Rel ((Evaluator.withBuiltins s).eval e c) ((Evaluator.withBuiltins s').eval e' c) := by
  induction h with
  | same e => exact R.eval_rel hs e c
  | replaced h => exact hP _ _ h
  | binary op _ _ hleft hright => exact R.binary_rel hs op hleft hright
  | call function hlength _ hargs =>
      exact R.eval_call_rel hs function (List.forall₂_iff_zip.2 ⟨hlength, hargs _⟩)

/-- The literal for a variable that has a value. -/
def Context.literal? (c : Context) : Expr → Option Expr
  | .variable name =>
    match (c.lookup name).bind Value.ofJson with
    | .ok v => some (.literal v)
    | .error _ => none
  | _ => none

namespace Evaluator

/-- The literal for a rule that has a value. -/
def literal? (ev : Evaluator Id) (c : Context) (e : Expr) : Option Expr :=
  match (ev.eval e c).run with
  | .ok v => some (.literal v)
  | .error _ => none

theorem eval_of_literal? {ev : Evaluator Id} {c : Context} {e e' : Expr}
    (h : ev.literal? c e = some e') : ev.eval e' c = ev.eval e c := by
  unfold literal? at h
  split at h
  · next v hv =>
      -- Without effects, the result is all there is to the computation.
      rw [← Option.some.inj h, eval_literal]
      exact hv.symm
  · cases h

theorem eval_of_context_literal? {m : Type → Type} [Monad m] (ev : Evaluator m) {c : Context}
    {e e' : Expr} (h : c.literal? e = some e') : ev.eval e' c = ev.eval e c := by
  unfold Context.literal? at h
  split at h
  · split at h
    · next v hv =>
        rw [← Option.some.inj h, eval_literal, eval_variable, hv, Outcome.ofExcept_ok]
    · cases h
  · cases h

/-- A rule does not change its meaning when parts of it are replaced by others
    of the same meaning. Equality in a monad is equality of effects as well, so
    the calls of the caster stay the same too. -/
theorem eval_rewritten {m : Type → Type} [Monad m] (s : Semantics m) (c : Context) {e e' : Expr}
    (h : e.Rewritten (fun a b => (withBuiltins s).eval b c = (withBuiltins s).eval a c) e') :
    (withBuiltins s).eval e' c = (withBuiltins s).eval e c :=
  ((Correspondence.equality m).rewritten_rel (Correspondence.equality_agrees s) c _
    (fun _ _ h => h.symm) h).symm

/-- The value of a rule, or its error, depends on the values and errors of its
    parts only: replacing occurrences of parts by others that come to the same
    changes nothing. So constants can be folded and variables inlined. -/
theorem rewriting_keeps_value (s : Semantics Id) (c : Context) (e : Expr) :
    (∀ e', e.Rewritten (fun a b => (withBuiltins s).eval b c = (withBuiltins s).eval a c) e' →
      (withBuiltins s).eval e' c = (withBuiltins s).eval e c) ∧
    (withBuiltins s).eval (e.rewrite ((withBuiltins s).literal? c)) c =
      (withBuiltins s).eval e c ∧
    (withBuiltins s).eval (e.rewrite c.literal?) c = (withBuiltins s).eval e c := by
  refine ⟨fun e' h => eval_rewritten s c h, ?_, ?_⟩
  · exact eval_rewritten s c (e.rewritten_rewrite _ _ fun _ _ => eval_of_literal?)
  · exact eval_rewritten s c (e.rewritten_rewrite _ _ fun _ _ => eval_of_context_literal? _)

/-- In `and(1 < 2, x)` the comparison is folded and the unknown variable is left. -/
example : let s : Semantics Id := ⟨Caster.json, .zero⟩
    (Expr.call "and" [.binary .less (.literal (.int 1)) (.literal (.int 2)),
      .variable "x"]).rewrite ((withBuiltins s).literal? .empty) =
      .call "and" [.literal (.bool true), .variable "x"] :=
  rfl

end Evaluator

end Criteria
