import Criteria.Proofs.Connectives
import Criteria.Proofs.Division

/-!
# Laziness

Arguments that evaluation does not come to.

`and` and `or` go through their arguments up to the first that decides or fails, and
`if` goes on with one of its branches, or with none where the condition fails. What
stands in the other places has no part in the evaluation. It may be unbound, unknown
or bound to fail, there may be more of it or less, and neither the value of the rule
around it nor the calls of the caster tell the difference.

Which arguments these are depends on truth values, and the statement takes them from
evaluation without a record of calls. The record is kept by an evaluation with
effects, where a truth value is no more than what a computation ends with. So the two
have to be brought together: the effects of a caster that answers by a fixed function
come on top of results that do not depend on them. `Outcome.EndsWith` says this of a
computation, and it goes through the whole evaluation as a `Correspondence`. What is
put behind a computation that ends with a known result matters at that result only.

## Main definitions

* `Outcome.EndsWith`: A computation ends with one result, whatever its effects.
* `Correspondence.settled`: Computations with effects beside their results.
* `Evaluator.UnreadChange`: Calls that differ in arguments which are not evaluated.

## Theorems

* `Outcome.EndsWith.bind_eq_bind`: Only what follows the known result matters.
* `Correspondence.settled_agrees`: Evaluation ends with what it comes to without
  effects, if the caster answers by a fixed function.
* `Builtin.scan_append`: A scan does not go past an argument at which it stops or
  fails.
* `Evaluator.eval_unreadChange`, `Evaluator.eval_unread`: A call does not change with
  what it leaves unread, nor does a rule with such calls in it.
* `Evaluator.unread_arguments_replaced`: The value and the calls of the caster stay the
  same.
-/

namespace Criteria

section Results

variable {m : Type → Type} [Monad m]

/-- Whether a computation ends with a result, whatever else it does before. -/
def Outcome.EndsWith {α : Type} (x : Outcome m α) (r : Except EvalError α) : Prop :=
  ∃ effects : m Unit, x.run = effects >>= fun _ => pure r

variable [LawfulMonad m]

namespace Outcome.EndsWith

variable {α β : Type} {x : Outcome m α} {f g : α → Outcome m β}

theorem ofExcept (r : Except EvalError α) : (Outcome.ofExcept r : Outcome m α).EndsWith r :=
  ⟨pure (), (pure_bind () fun _ => pure r).symm⟩

/-- Two computations in turn have the effects of both, and the result of the second. -/
theorem bind {a : α} {r : Except EvalError β} (hx : x.EndsWith (.ok a))
    (hf : (f a).EndsWith r) : EndsWith (x >>= f) r := by
  rcases hx with ⟨first, hfirst⟩
  rcases hf with ⟨second, hsecond⟩
  refine ⟨first >>= fun _ => second, ?_⟩
  rw [ExceptT.run_bind, hfirst, bind_assoc, bind_assoc]
  refine bind_congr fun _ => ?_
  rw [pure_bind]
  exact hsecond

theorem bind_error {err : EvalError} (hx : x.EndsWith (.error err)) :
    EndsWith (x >>= f) (.error err) := by
  rcases hx with ⟨first, hfirst⟩
  refine ⟨first, ?_⟩
  rw [ExceptT.run_bind, hfirst, bind_assoc]
  exact bind_congr fun _ => pure_bind _ _

/-- Behind a computation that ends with a known result it matters only what is done
    with that result, and behind a failure nothing does. -/
theorem bind_eq_bind {r : Except EvalError α} (hx : x.EndsWith r)
    (h : ∀ a, r = .ok a → f a = g a) : x >>= f = x >>= g := by
  rcases hx with ⟨effects, heffects⟩
  refine ExceptT.ext ?_
  rw [ExceptT.run_bind, ExceptT.run_bind, heffects, bind_assoc, bind_assoc]
  refine bind_congr fun _ => ?_
  rw [pure_bind, pure_bind]
  cases r with
  | ok a => exact congrArg ExceptT.run (h a rfl)
  | error err => rfl

end Outcome.EndsWith

end Results

namespace Correspondence

variable {m : Type → Type} [Monad m] [LawfulMonad m]

/-- Computations with effects, and what they end with whatever these are. -/
def settled (m : Type → Type) [Monad m] [LawfulMonad m] : Correspondence m Id where
  Rel x y := x.EndsWith y.run
  rel_pure a := Outcome.EndsWith.ofExcept (.ok a)
  rel_throw err _ := Outcome.EndsWith.ofExcept (.error err)
  rel_bind {α β x y f g} hx hf := by
    change Except EvalError α at y
    cases y with
    | ok a => exact hx.bind (hf a)
    | error err => exact hx.bind_error

/-- A caster that answers by a function settles all that evaluation needs of it, in
    whatever way it has effects besides. -/
theorem settled_agrees {f : Json → ScalarType → Except EvalError Value} {s : Semantics m}
    (hcast : ∀ j target, (s.caster.cast j target).EndsWith (f j target)) :
    (settled m).Agrees s (.ofFunction f s.division) := by
  refine (settled m).agrees_of_casts (fun j target _ => hcast j target) fun kind op x y a b => ?_
  rw [Semantics.combine_eq, Semantics.combine_eq]
  exact Outcome.EndsWith.ofExcept _

end Correspondence

/-- A scan that does not go on past an argument is the same whatever comes after. -/
theorem Builtin.scan_append {m : Type → Type} [Monad m] [LawfulMonad m] {s : Semantics m}
    {c : Context} {stop : Bool} {a : Argument m}
    {r : Except EvalError Bool} (ha : (a.evalBool s c).EndsWith r) (hr : r ≠ .ok !stop)
    (before rest rest' : List (Argument m)) :
    scan stop s c (before ++ a :: rest) = scan stop s c (before ++ a :: rest') := by
  induction before with
  | nil =>
      simp only [List.nil_append, scan]
      refine ha.bind_eq_bind fun b hb => ?_
      -- The argument has a truth value, and it can only be the one at which to stop.
      have hstop : b = stop := by
        rw [hb] at hr
        by_contra hne
        exact hr (congrArg Except.ok (Bool.eq_not_of_ne hne))
      rw [if_pos hstop, if_pos hstop]
  | cons first before ih =>
      simp only [List.cons_append, scan, ih]

namespace Evaluator

/-- Calls that differ in arguments which evaluation does not come to. Such are the
    arguments of a connective behind one at which it stops or fails, of which the
    first is one, and the branches of a conditional that its condition does not
    choose, both of them where the condition fails. -/
inductive UnreadChange (ev : Evaluator Id) (c : Context) : Expr → Expr → Prop where
  | connective (k : Connective) (before : List Expr) {a : Expr} (rest rest' : List Expr)
      (ha : ev.evalBool a c ≠ pure !k.decisive) :
      UnreadChange ev c (.call k.function (before ++ a :: rest))
        (.call k.function (before ++ a :: rest'))
  | conditional {condition yes yes' no no' : Expr}
      (hyes : ev.evalBool condition c = pure true → yes = yes')
      (hno : ev.evalBool condition c = pure false → no = no') :
      UnreadChange ev c (.call "if" [condition, yes, no]) (.call "if" [condition, yes', no'])

/-- A conditional evaluates its condition and one branch. -/
theorem eval_conditional {m : Type → Type} [Monad m] (s : Semantics m) (condition yes no : Expr)
    (c : Context) :
    (withBuiltins s).eval (.call "if" [condition, yes, no]) c = (do
      if ← (withBuiltins s).evalBool condition c then (withBuiltins s).eval yes c
      else (withBuiltins s).eval no c) :=
  eval_builtin s (by simp [Builtin.all] : ("if", Builtin.conditional) ∈ Builtin.all) _ c

section Effects

variable {m : Type → Type} [Monad m] [LawfulMonad m] {s : Semantics m}
  {f : Json → ScalarType → Except EvalError Value}
  (hcast : ∀ j target, (s.caster.cast j target).EndsWith (f j target)) {c : Context} {e e' : Expr}

include hcast

/-- A call that differs in what is not evaluated is evaluated in the same way, with
    all effects that a caster may have besides its answers. -/
theorem eval_unreadChange
    (h : UnreadChange (withBuiltins (.ofFunction f s.division)) c e e') :
    (withBuiltins s).eval e c = (withBuiltins s).eval e' c := by
  have hsettled : ∀ (a : Expr) (r : Except EvalError Bool),
      ((withBuiltins (.ofFunction f s.division)).evalBool a c : Outcome Id Bool).run = r →
        ((withBuiltins s).evalBool a c).EndsWith r := by
    rintro a r rfl
    exact (Correspondence.settled m).evalBool_rel (Correspondence.settled_agrees hcast) a c
  cases h with
  | @connective k before a rest rest' ha =>
      have hne : ∀ l, before ++ a :: l ≠ [] := fun l =>
        List.append_ne_nil_of_right_ne_nil _ (List.cons_ne_nil a l)
      rw [eval_connective_call s k (hne rest), eval_connective_call s k (hne rest')]
      simp only [List.map_append, List.map_cons]
      exact Builtin.scan_append (hsettled a _ rfl) ha _ _ _
  | @conditional condition yes yes' no no' hyes hno =>
      rw [eval_conditional, eval_conditional]
      refine (hsettled condition _ rfl).bind_eq_bind fun b hb => ?_
      -- The branch that this truth value chooses is the same on both sides.
      cases b with
      | true => simp only [hyes hb, if_true]
      | false => simp only [hno hb, Bool.false_eq_true, if_false]

/-- So is a rule with such calls in it. -/
theorem eval_unread
    (h : e.Rewritten (UnreadChange (withBuiltins (.ofFunction f s.division)) c) e') :
    (withBuiltins s).eval e c = (withBuiltins s).eval e' c :=
  (Correspondence.equality m).rewritten_rel (Correspondence.equality_agrees s) c _
    (fun _ _ hchange => eval_unreadChange hcast hchange) h

end Effects

/-- A rule does not change with what its calls leave unread, at whatever depth they
    stand. It comes to the same value or error, and on the way there the caster is
    called with the same data and targets in the same order. -/
theorem unread_arguments_replaced (f : Json → ScalarType → Except EvalError Value)
    (division : DivisionPolicy) (c : Context) {e e' : Expr}
    (h : e.Rewritten (UnreadChange (withBuiltins (.ofFunction f division)) c) e') :
    ((withBuiltins (.ofFunction f division)).eval e' c : Outcome Id Value) =
        (withBuiltins (.ofFunction f division)).eval e c ∧
      ((withBuiltins (Semantics.ofFunction (m := StateM Unit) f division).recorded).eval e' c).calls
          () =
        ((withBuiltins (Semantics.ofFunction f division).recorded).eval e c).calls () := by
  let plain : Semantics Id := .ofFunction f division
  let recorded : Semantics (Recorder (StateM Unit)) := (Semantics.ofFunction f division).recorded
  have hplain : ∀ j target, (plain.caster.cast j target).EndsWith (f j target) :=
    fun j target => .ofExcept (f j target)
  -- With a record, a cast has one more entry as its effect.
  have hrecorded : ∀ j target, (recorded.caster.cast j target).EndsWith (f j target) :=
    fun j target => ⟨modify (· ++ [(j, target)]), rfl⟩
  refine ⟨(eval_unread (s := plain) hplain h).symm, ?_⟩
  exact congrArg (Outcome.calls · ()) (eval_unread (s := recorded) hrecorded h).symm

/-- In `or(flag, x) == if(flag, true, y)` both calls have the text `"1"` of the flag cast
    to a truth value, and leave the unbound variables unread. An unknown function, a
    quotient by zero and one more argument can stand there as well. -/
theorem unread_arguments_replaced_flag :
    let flag : Expr := .variable "flag"
    let yes : Expr := .literal (.bool true)
    let zero : Expr := .literal (.int 0)
    let c := Context.empty.set "flag" (.string "1")
    let e : Expr := .binary .equal (.call "or" [flag, .variable "x"])
      (.call "if" [flag, yes, .variable "y"])
    let e' : Expr := .binary .equal (.call "or" [flag, .call "unknown" [], .binary .divide yes zero])
      (.call "if" [flag, yes, .call "len" []])
    e.Rewritten (UnreadChange (withBuiltins (.ofFunction Json.cast .error)) c) e' ∧
      ((withBuiltins (.ofFunction Json.cast .error)).eval e' c : Outcome Id Value) =
        pure (.bool true) ∧
      ((withBuiltins (Semantics.ofFunction Json.cast .error).recorded).eval e' c).calls () =
        [(.string "1", .bool), (.string "1", .bool)] := by
  intro flag yes zero c e e'
  have hflag : ((withBuiltins (.ofFunction Json.cast .error)).evalBool flag c :
      Outcome Id Bool) = pure true := rfl
  have hunread : e.Rewritten (UnreadChange (withBuiltins (.ofFunction Json.cast .error)) c) e' := by
    refine .binary .equal (.replaced ?_) (.replaced ?_)
    · refine .connective .any [] _ _ ?_
      rw [hflag]
      exact nofun
    · refine .conditional (fun _ => rfl) fun hfalse => ?_
      rw [hflag] at hfalse
      cases hfalse
  have hreplaced := unread_arguments_replaced Json.cast .error c hunread
  exact ⟨hunread, hreplaced.1.trans rfl, hreplaced.2.trans rfl⟩

end Evaluator

end Criteria
