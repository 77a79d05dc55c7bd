import Criteria.Proofs.Interchange

/-!
# Verdicts of Conjunctions and Disjunctions

Laws of the functions that join conditions.

A conjunction goes through its conditions up to the first false one, and a disjunction up
to the first true one. On the way conditions are evaluated, cast to truth values where
they have other types, and may fail. The laws of truth values hold all the same, and they
hold of everything that happens: the rules on the two sides stop at the same condition,
fail with the same error, and call the caster in the same way.

They are laws of lists. `Builtin.verdict` is the truth value that a list of arguments
comes to, and it is also what a call of the function is taken for where it is a condition
itself, since a truth value is not cast again. The verdict on two lists in turn is the
verdict on the first, unless that leaves the matter open. So a call among the conditions
may give way to its own conditions, and a negation may be moved inward, where it exchanges
the truth values that decide.

## Main definitions

* `Builtin.verdict`: The truth value that a list of arguments comes to.
* `Connective.dual`: Conjunction for disjunction, and the other way round.
* `Expr.Nesting`: Calls of one function within calls of it.

## Theorems

* `Builtin.scan_eq_map_verdict`: A scan gives the verdict as its value.
* `Builtin.verdict_append`: The verdict on two lists in turn.
* `Evaluator.evalBool_connective_call`: A call is taken for its verdict.
* `Evaluator.verdict_negations`: The verdict on negated conditions.
* `Evaluator.evalBool_nesting`: A nesting is taken for the verdict on its leaves.
* `Evaluator.negation_moved_inward`: Negation exchanges conjunction and disjunction.
* `Evaluator.nested_connectives_flattened`: Nested calls of one function are one call.
-/

namespace Criteria

open Evaluator (withBuiltins)

/-- Disjunction for conjunction, and the other way round. -/
def Connective.dual : Connective → Connective
  | .all => .any
  | .any => .all

theorem Connective.decisive_dual (k : Connective) : k.dual.decisive = !k.decisive := by
  cases k <;> rfl

/-- Calls of one function within calls of it, each with at least one argument, and the
    rules that they have as their leaves, from left to right. What is not opened is a leaf,
    be it a call of the function or not. -/
inductive Expr.Nesting (k : Connective) : List Expr → Expr → Prop where
  | leaf (e : Expr) : Nesting k [e] e
  | call (parts : List (List Expr × Expr)) (hparts : parts ≠ [])
      (h : ∀ part ∈ parts, Nesting k part.1 part.2) :
      Nesting k (parts.flatMap Prod.fst) (.call k.function (parts.map Prod.snd))

theorem Expr.Nesting.leaves_ne_nil {k : Connective} {leaves : List Expr} {e : Expr}
    (h : e.Nesting k leaves) : leaves ≠ [] := by
  induction h with
  | leaf e => exact List.cons_ne_nil e []
  | call parts hparts _ ih =>
      rcases List.exists_cons_of_ne_nil hparts with ⟨part, rest, rfl⟩
      rw [List.flatMap_cons]
      exact List.append_ne_nil_of_left_ne_nil (ih part List.mem_cons_self) _

section Laws

variable {m : Type → Type} [Monad m]

/-- The truth value that arguments come to one after the other, up to the first that is
    the one at which to stop. -/
def Builtin.verdict (stop : Bool) (s : Semantics m) (c : Context) :
    List (Argument m) → Outcome m Bool
  | [] => pure !stop
  | a :: rest => do
    let b ← a.evalBool s c
    if b = stop then pure stop else verdict stop s c rest

theorem Evaluator.evalBool_argument (s : Semantics m) (c : Context) (e : Expr) :
    ((withBuiltins s).argument e).evalBool s c = (withBuiltins s).evalBool e c :=
  rfl

variable [LawfulMonad m]

/-- A rule whose value is a truth value is taken for it as it is. -/
theorem Evaluator.evalBool_of_truth {ev : Evaluator m} {e : Expr} {c : Context}
    {x : Outcome m Bool} (h : ev.eval e c = Value.bool <$> x) : ev.evalBool e c = x := by
  have hself : ∀ b, ev.coerce (.bool b) .bool = pure (.bool b) := fun b => if_pos rfl
  unfold evalBool Argument.evalBool Argument.evalAs argument
  simp only [h, bind_assoc, bind_map_left, hself, pure_bind, bind_pure]

namespace Builtin

variable {s : Semantics m} {c : Context} {stop : Bool}

theorem scan_eq_map_verdict (as : List (Argument m)) :
    scan stop s c as = Value.bool <$> verdict stop s c as := by
  induction as with
  | nil => exact (map_pure _ _).symm
  | cons a rest ih =>
      simp only [scan, verdict, map_bind]
      refine bind_congr fun b => ?_
      by_cases hstop : b = stop
      · rw [if_pos hstop, if_pos hstop, map_pure]
      · rw [if_neg hstop, if_neg hstop, ih]

/-- On one argument the verdict is its truth value, whichever is the one at which to stop. -/
theorem verdict_singleton (a : Argument m) : verdict stop s c [a] = a.evalBool s c := by
  have hstay : ∀ b, (if b = stop then pure stop else pure !stop : Outcome m Bool) = pure b := by
    intro b
    by_cases hstop : b = stop
    · rw [if_pos hstop, hstop]
    · rw [if_neg hstop, Bool.eq_not_of_ne hstop]
  simp only [verdict, hstay, bind_pure]

/-- The verdict on two lists in turn is that on the first, if it is the one at which to
    stop, and else that on the second. -/
theorem verdict_append (as bs : List (Argument m)) :
    verdict stop s c (as ++ bs) = (do
      let b ← verdict stop s c as
      if b = stop then pure stop else verdict stop s c bs) := by
  induction as with
  | nil => rw [List.nil_append, verdict, pure_bind, if_neg (by simp)]
  | cons a rest ih =>
      simp only [List.cons_append, verdict, bind_assoc, ih]
      refine bind_congr fun b => ?_
      by_cases hstop : b = stop
      · rw [if_pos hstop, if_pos hstop, pure_bind, if_pos rfl]
      · rw [if_neg hstop, if_neg hstop]

/-- An argument may give way to a list on which the verdict is its truth value. -/
theorem verdict_cons {a : Argument m} {as : List (Argument m)}
    (ha : a.evalBool s c = verdict stop s c as) (rest : List (Argument m)) :
    verdict stop s c (a :: rest) = verdict stop s c (as ++ rest) := by
  rw [verdict_append, ← ha, verdict]

/-- So may all arguments at once. -/
theorem verdict_flatten {as : List (Argument m)} {groups : List (List (Argument m))}
    (h : List.Forall₂ (fun a group => a.evalBool s c = verdict stop s c group) as groups) :
    verdict stop s c as = verdict stop s c groups.flatten := by
  induction h with
  | nil => rfl
  | cons hfirst _ ih =>
      rw [verdict_cons hfirst, List.flatten_cons, verdict_append, verdict_append, ih]

end Builtin

namespace Evaluator

variable (s : Semantics m) (c : Context)

/-- A call of a connective gives the verdict on its arguments. -/
theorem eval_connective (k : Connective) {args : List Expr} (hargs : args ≠ []) :
    (withBuiltins s).eval (.call k.function args) c =
      Value.bool <$> Builtin.verdict k.decisive s c (args.map (withBuiltins s).argument) := by
  rw [eval_connective_call s k hargs, Builtin.scan_eq_map_verdict]

/-- As a condition it is taken for that verdict. -/
theorem evalBool_connective_call (k : Connective) {args : List Expr} (hargs : args ≠ []) :
    (withBuiltins s).evalBool (.call k.function args) c =
      Builtin.verdict k.decisive s c (args.map (withBuiltins s).argument) :=
  evalBool_of_truth (eval_connective s c k hargs)

/-- A negation gives the other truth value. -/
theorem eval_negation (e : Expr) :
    (withBuiltins s).eval (.call "not" [e]) c =
      Value.bool <$> Bool.not <$> (withBuiltins s).evalBool e c := by
  rw [Functor.map_map, map_eq_pure_bind]
  exact eval_builtin s (by simp [Builtin.all] : ("not", Builtin.negation) ∈ Builtin.all) _ c

theorem evalBool_negation (e : Expr) : (withBuiltins s).evalBool (.call "not" [e]) c =
    Bool.not <$> (withBuiltins s).evalBool e c :=
  evalBool_of_truth (eval_negation s c e)

/-- On negated arguments the verdict is the other one, if it is the other truth value at
    which to stop. -/
theorem verdict_negations (stop : Bool) (as : List Expr) :
    Builtin.verdict (!stop) s c
        ((as.map fun a => .call "not" [a]).map (withBuiltins s).argument) =
      Bool.not <$> Builtin.verdict stop s c (as.map (withBuiltins s).argument) := by
  induction as with
  | nil => exact (map_pure _ _).symm
  | cons a rest ih =>
      simp only [List.map_cons, Builtin.verdict, evalBool_argument, evalBool_negation,
        bind_map_left, map_bind]
      refine bind_congr fun b => ?_
      by_cases hstop : b = stop
      · rw [if_pos hstop, if_pos (congrArg Bool.not hstop), map_pure]
      · rw [if_neg hstop, if_neg (fun h => hstop (Bool.not_inj h)), ih]

/-- A nesting of calls is taken for the verdict on its leaves. -/
theorem evalBool_nesting {k : Connective} {leaves : List Expr} {e : Expr}
    (h : e.Nesting k leaves) : (withBuiltins s).evalBool e c =
      Builtin.verdict k.decisive s c (leaves.map (withBuiltins s).argument) := by
  induction h with
  | leaf e => exact (Builtin.verdict_singleton _).symm
  | call parts hparts _ ih =>
      have hargs : parts.map Prod.snd ≠ [] := mt List.map_eq_nil_iff.1 hparts
      rw [evalBool_connective_call s c k hargs, List.map_flatMap, List.flatMap_def, List.map_map]
      -- The arguments give way to their leaves.
      refine Builtin.verdict_flatten ?_
      rw [List.forall₂_map_left_iff, List.forall₂_map_right_iff, List.forall₂_same]
      exact ih

/-- Negation exchanges conjunction and disjunction. A negated call of the one function and
    a call of the other on negated conditions have the same value or the same error and
    call the caster in the same way: both stop at the first condition that decides. -/
theorem negation_moved_inward (k : Connective) {as : List Expr} (has : as ≠ []) :
    Expr.Interchangeable (.call "not" [.call k.function as])
      (.call k.dual.function (as.map fun a => .call "not" [a])) := by
  refine .of_eval fun s c => ?_
  have hmap : as.map (fun a => Expr.call "not" [a]) ≠ [] := mt List.map_eq_nil_iff.1 has
  rw [eval_negation, evalBool_connective_call s c k has, eval_connective s c k.dual hmap,
    k.decisive_dual, verdict_negations]

/-- `not(and("1", 2, x))` and `or(not("1"), not(2), not(x))` both fail at the number, which
    no truth value is, after two casts and before they come to the variable. -/
theorem negation_moved_inward_number :
    let s : Semantics (StateM Unit) := ⟨Caster.json, .zero⟩
    let as : List Expr := [.literal (.string "1"), .literal (.int 2), .variable "x"]
    let e : Expr := .call "not" [.call "and" as]
    let e' : Expr := .call "or" (as.map fun a => .call "not" [a])
    let err : EvalError := .coercion "2" .bool Refusal.notBoolNumber.text
    as ≠ [] ∧
      (withBuiltins s).eval e .empty = throw err ∧ (withBuiltins s).eval e' .empty = throw err ∧
      ((withBuiltins s.recorded).eval e' .empty).calls () =
        [(.string "1", .bool), (.number (.ofInt64 2), .bool)] := by
  intro s as e e' err
  have has : as ≠ [] := List.cons_ne_nil _ _
  have hsame := negation_moved_inward .all has
  have hfail : (withBuiltins s).eval e .empty = throw err := rfl
  have hcalls : ((withBuiltins s.recorded).eval e .empty).calls () =
      [(.string "1", .bool), (.number (.ofInt64 2), .bool)] := rfl
  exact ⟨has, hfail, (hsame.result s .empty).symm.trans hfail,
    (hsame.calls s .empty ()).symm.trans hcalls⟩

/-- Nested calls of one function are one call. A call among the conditions of another one
    may give way to its own conditions, if it has any. Repeated, this makes every nesting of
    calls one call of the function on its leaves. A leaf alone is left out, since it need
    not be a condition that is already a truth value; as an argument of the function it is
    no exception. The value or error stays the same, and the caster is called in the same
    way. -/
theorem nested_connectives_flattened (k : Connective) :
    (∀ xs ys zs : List Expr, ys ≠ [] →
      Expr.Interchangeable (.call k.function (xs ++ .call k.function ys :: zs))
        (.call k.function (xs ++ ys ++ zs))) ∧
    ∀ (leaves : List Expr) (e : Expr), e.Nesting k leaves →
      Expr.Interchangeable (.call k.function [e]) (.call k.function leaves) ∧
        (leaves ≠ [e] → Expr.Interchangeable e (.call k.function leaves)) := by
  refine ⟨fun xs ys zs hys => .of_eval fun s c => ?_, fun leaves e h => ⟨?_, fun hne => ?_⟩⟩
  · have hcall := (evalBool_argument s c _).trans (evalBool_connective_call s c k hys)
    have hflat : xs ++ ys ++ zs ≠ [] :=
      List.append_ne_nil_of_left_ne_nil (List.append_ne_nil_of_right_ne_nil xs hys) zs
    rw [eval_connective s c k (by simp), eval_connective s c k hflat]
    -- Up to the inner call the two go the same way, and there its verdict is that on `ys`.
    rw [List.append_assoc, List.map_append, List.map_append, List.map_cons, List.map_append,
      Builtin.verdict_append, Builtin.verdict_append, Builtin.verdict_cons hcall]
  · refine .of_eval fun s c => ?_
    rw [eval_connective s c k (List.cons_ne_nil e []), eval_connective s c k h.leaves_ne_nil,
      ← evalBool_nesting s c h]
    exact congrArg _ (Builtin.verdict_singleton _)
  · refine .of_eval fun s c => ?_
    have hleaves := evalBool_nesting s c h
    rw [eval_connective s c k h.leaves_ne_nil, ← hleaves]
    -- What is not a leaf alone is a call, so its value is the truth value it is taken for.
    cases h with
    | leaf e => exact absurd rfl hne
    | call parts hparts _ =>
        have hargs : parts.map Prod.snd ≠ [] := mt List.map_eq_nil_iff.1 hparts
        rw [eval_connective s c k hargs, evalBool_connective_call s c k hargs]

/-- `and("1", and(1, 0), x)` is `and("1", 1, 0, x)`, which is false at the third of its
    conditions, after three casts. A leaf alone need not be a truth value: `1` is not
    `and(1)`. -/
theorem nested_connectives_flattened_number :
    let s : Semantics (StateM Unit) := ⟨Caster.json, .zero⟩
    let text : Expr := .literal (.string "1")
    let one : Expr := .literal (.int 1)
    let ys : List Expr := [one, .literal (.int 0)]
    let leaves : List Expr := text :: ys ++ [.variable "x"]
    let nested : Expr := .call "and" [text, .call "and" ys, .variable "x"]
    let calls : List Call :=
      [(.string "1", .bool), (.number (.ofInt64 1), .bool), (.number (.ofInt64 0), .bool)]
    ys ≠ [] ∧ nested.Nesting .all leaves ∧ leaves ≠ [nested] ∧
      (withBuiltins s).eval nested .empty = pure (.bool false) ∧
      ((withBuiltins s.recorded).eval nested .empty).calls () = calls ∧
      ¬ Expr.Interchangeable one (.call "and" [one]) := by
  intro s text one ys leaves nested calls
  have hys : ys ≠ [] := List.cons_ne_nil _ _
  have hinner : Expr.Nesting .all ys (.call "and" ys) :=
    .call (ys.map fun y => ([y], y)) (List.cons_ne_nil _ _) fun part hpart => by
      rcases List.mem_map.1 hpart with ⟨y, _, rfl⟩
      exact .leaf y
  have hnested : nested.Nesting .all leaves := by
    refine .call [([text], text), (ys, .call "and" ys), ([.variable "x"], .variable "x")]
      (List.cons_ne_nil _ _) fun part hpart => ?_
    simp only [List.mem_cons, List.not_mem_nil, or_false] at hpart
    rcases hpart with rfl | rfl | rfl
    · exact .leaf _
    · exact hinner
    · exact .leaf _
  have hne : leaves ≠ [nested] := fun h => by
    have hlength : leaves.length = 1 := congrArg List.length h
    cases hlength
  have hlaws := nested_connectives_flattened .all
  have hsplice : Expr.Interchangeable nested (.call "and" leaves) :=
    hlaws.1 [text] ys [.variable "x"] hys
  have hflat : Expr.Interchangeable nested (.call "and" leaves) :=
    (hlaws.2 leaves nested hnested).2 hne
  have hvalue : (withBuiltins s).eval (.call "and" leaves) .empty = pure (.bool false) := rfl
  have hcalls : ((withBuiltins s.recorded).eval (.call "and" leaves) .empty).calls () = calls :=
    rfl
  refine ⟨hys, hnested, hne, (hsplice.result s .empty).trans hvalue,
    (hflat.calls s .empty ()).trans hcalls, fun hleaf => ?_⟩
  -- The one is a number and the other a truth value.
  cases congrFun (hleaf.result s .empty) ()

end Evaluator

end Laws

end Criteria
