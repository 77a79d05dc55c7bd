import Criteria.Proofs.Calls

/-!
# Division Policies

What the division policy changes, and what it does not.

The policy is looked at in one place, where a quotient has a zero as its divisor.
From there its effect spreads through the whole rule, since a zero in place of a
quotient may decide a comparison, that comparison may choose a branch, and the
branch may fail in some way of its own. Still the two policies never lead to
different values. A rule that goes on with a zero under one policy has stopped for
good under the other, so wherever the results differ the error is the division by
zero.

Under the policy that puts zero for the quotient no operator raises that error.
Where it comes out all the same, it was the answer of the caster to some call.

## Main definitions

* `DivisionPolicy.Governs`: Results that depend on the policy as quotients do.
* `Semantics.ofFunction`: Operators with a caster without effects.
* `Correspondence.stopping`: Computations of which the first may have stopped at a
  division by zero.
* `Correspondence.effectless`: Computations without effects, in any monad and in
  none.
* `Correspondence.answered`: Computations that leave a division by zero to the
  caster.

## Theorems

* `Semantics.combine_governed`: The policy governs every operator.
* `Evaluator.eval_stopping`: Strict evaluation gives the lenient result or stops.
* `Evaluator.divisionByZero_answered`: Under the lenient policy that error is an
  answer of the caster.
* `Evaluator.policies_differ_by_divisionByZero`: How the two results compare.
-/

namespace Criteria

/-- Results by policy that are what the policy puts for a quotient, or else are the
    same under both and not a division by zero. -/
inductive DivisionPolicy.Governs : (DivisionPolicy → Except EvalError Value) → Prop where
  | quotient (zero : Value) : Governs fun policy => policy.quotient zero
  | constant (r : Except EvalError Value) (hne : r ≠ .error .divisionByZero) : Governs fun _ => r

/-- Operators with a caster without effects. -/
def Semantics.ofFunction {m : Type → Type} [Monad m]
    (f : Json → ScalarType → Except EvalError Value) (division : DivisionPolicy) : Semantics m :=
  ⟨Caster.ofFunction f, division⟩

namespace DivisionPolicy.Governs

variable {r : DivisionPolicy → Except EvalError Value}

theorem strict (h : Governs r) : r .error = r .zero ∨ r .error = .error .divisionByZero := by
  cases h with
  | quotient zero => exact Or.inr rfl
  | constant r _ => exact Or.inl rfl

theorem lenient_ne (h : Governs r) : r .zero ≠ .error .divisionByZero := by
  cases h with
  | quotient zero => exact nofun
  | constant r hne => exact hne

end DivisionPolicy.Governs

namespace Operator

open DivisionPolicy (Governs)

theorem onInts_governed (a b : Int64) (op : Operator) :
    Governs fun policy => op.onInts policy a b := by
  cases op with
  | divide =>
      by_cases hzero : b = 0
      · simp only [onInts, if_pos hzero]
        exact .quotient _
      · simp only [onInts, if_neg hzero]
        exact .constant _ nofun
  | _ => exact .constant _ (by simp)

theorem onFloats_governed (a b : Float) (op : Operator) :
    Governs fun policy => op.onFloats policy a b := by
  cases op with
  | divide =>
      by_cases hzero : (b == 0) = true
      · simp only [onFloats, if_pos hzero]
        exact .quotient _
      · simp only [onFloats, if_neg hzero]
        exact .constant _ nofun
  | _ => exact .constant _ (by simp)

theorem onStrings_governed (a b : String) (op : Operator) :
    Governs fun _ => op.onStrings a b := by
  cases op <;> exact .constant _ (by simp [onStrings])

theorem onBools_governed (a b : Bool) (op : Operator) : Governs fun _ => op.onBools a b := by
  cases op <;> exact .constant _ (by simp [onBools])

/-- The policy governs every operator at every type. An operator on values of
    other types fails in another way. -/
theorem combine?_governed (op : Operator) (kind : ScalarType) (a b : Value) (x y : Operand) :
    Governs fun policy =>
      (op.combine? policy kind a b).getD (.error (.typeAssertion x.text op y.text)) := by
  have hother : Governs fun _ => .error (.typeAssertion x.text op y.text) :=
    .constant _ (by simp)
  cases kind with
  | int64 =>
      cases a <;> cases b <;> first | exact onInts_governed _ _ op | exact hother
  | float =>
      cases a <;> cases b <;> first | exact onFloats_governed _ _ op | exact hother
  | string =>
      cases a <;> cases b <;> first | exact onStrings_governed _ _ op | exact hother
  | bool =>
      cases a <;> cases b <;> first | exact onBools_governed _ _ op | exact hother

end Operator

namespace Correspondence

/-- Computations of which the first has the result of the second or has stopped at
    a division by zero. -/
def stopping : Correspondence Id Id where
  Rel x y := x = y ∨ x = throw .divisionByZero
  rel_pure _ := Or.inl rfl
  rel_throw _ _ := Or.inl rfl
  rel_bind {α β x y f g} hx hf := by
    rcases hx with rfl | rfl
    · change Except EvalError α at x
      cases x with
      | ok a => exact hf a
      | error err => exact Or.inl rfl
    -- What has stopped stays stopped, whatever the other side goes on to do.
    · exact Or.inr rfl

theorem stopping_agrees (f : Json → ScalarType → Except EvalError Value) :
    stopping.Agrees (Semantics.ofFunction f .error) (Semantics.ofFunction f .zero) := by
  refine stopping.agrees_of_casts (fun j target _ => Or.inl rfl) fun kind op x y a b => ?_
  rw [Semantics.combine_eq, Semantics.combine_eq]
  rcases (op.combine?_governed kind a b x y).strict with heq | hstop
  · exact Or.inl (congrArg Outcome.ofExcept heq)
  · exact Or.inr (congrArg Outcome.ofExcept hstop)

/-- Computations without effects, in a monad that allows for some and in one that
    does not. -/
def effectless (m : Type → Type) [Monad m] [LawfulMonad m] : Correspondence m Id where
  Rel x y := x = Outcome.ofExcept y.run
  rel_pure a := (Outcome.ofExcept_ok a).symm
  rel_throw err _ := (Outcome.ofExcept_error err).symm
  rel_bind {α β x y f g} hx hf := by
    change Except EvalError α at y
    cases y with
    | ok a =>
        have hfirst : x = pure a := hx
        rw [hfirst, pure_bind]
        exact hf a
    | error err =>
        have hfirst : x = throw err := hx
        rw [hfirst]
        exact ExceptT.ext (pure_bind _ _)

theorem effectless_agrees {m : Type → Type} [Monad m] [LawfulMonad m]
    (f : Json → ScalarType → Except EvalError Value) (division : DivisionPolicy) :
    (effectless m).Agrees (Semantics.ofFunction f division) (Semantics.ofFunction f division) := by
  refine (effectless m).agrees_of_casts (fun j target _ => rfl) fun kind op x y a b => ?_
  rw [Semantics.combine_eq, Semantics.combine_eq]
  rfl

/-- Computations that fail with a division by zero only if that was an answer of
    the caster. -/
def answered {σ : Type} (f : Json → ScalarType → Except EvalError Value) :
    Correspondence (Recorder (StateM σ)) (Recorder (StateM σ)) :=
  keeps (fun _ => True)
    (fun err log => err = .divisionByZero →
      ∃ call ∈ log, f call.1 call.2 = .error .divisionByZero)
    fun err _ herr _ heq => by rw [heq] at herr; cases herr

theorem answered_agrees {σ : Type} (f : Json → ScalarType → Except EvalError Value) :
    (answered (σ := σ) f).Agrees (Semantics.ofFunction f .zero).recorded
      (Semantics.ofFunction f .zero).recorded := by
  refine (answered f).agrees_of_casts (fun j target _ log init _ => ?_) fun kind op x y a b => ?_
  -- If the caster answers with the error, this very call is on the record.
  · refine ⟨fun _ _ => trivial, fun err herr hdiv => ?_⟩
    have hcast : f j target = .error .divisionByZero := hdiv ▸ herr
    exact ⟨(j, target), List.mem_append_right log (List.mem_singleton.2 rfl), hcast⟩
  · rw [Semantics.combine_eq]
    refine fun log init _ => ⟨fun _ _ => trivial, fun err herr hdiv => ?_⟩
    exact absurd (hdiv ▸ herr) (op.combine?_governed kind a b x y).lenient_ne

end Correspondence

namespace Evaluator

variable (f : Json → ScalarType → Except EvalError Value) (e : Expr) (c : Context)

/-- Strict evaluation has the result of lenient evaluation or stops at a division
    by zero. -/
theorem eval_stopping :
    ((withBuiltins (.ofFunction f .error)).eval e c : Outcome Id Value) =
        (withBuiltins (.ofFunction f .zero)).eval e c ∨
      ((withBuiltins (.ofFunction f .error)).eval e c : Outcome Id Value) =
        throw .divisionByZero :=
  Correspondence.stopping.eval_rel (Correspondence.stopping_agrees f) e c

/-- A caster without effects has none on a rule, and what goes on record are the
    calls that lead to the result. -/
theorem recorded_result_ofFunction (division : DivisionPolicy) :
    (((withBuiltins (Semantics.ofFunction (m := StateM Unit) f division).recorded).eval e c).runFrom
      [] ()).1.1 = ((withBuiltins (.ofFunction f division)).eval e c : Outcome Id Value).run := by
  have hrecorded := recorded_result (.ofFunction f division) e c [] ()
  rw [(Correspondence.effectless (StateM Unit)).eval_rel
    (Correspondence.effectless_agrees f division) e c] at hrecorded
  exact congrArg Prod.fst hrecorded

/-- Where lenient evaluation comes to a division by zero, the caster gave that
    error as its answer to one of the calls. -/
theorem divisionByZero_answered
    (h : ((withBuiltins (.ofFunction f .zero)).eval e c : Outcome Id Value) =
      throw .divisionByZero) :
    ∃ call ∈ ((withBuiltins (Semantics.ofFunction f .zero).recorded).eval e c).calls (),
      f call.1 call.2 = .error .divisionByZero := by
  have hkeeps := (Correspondence.answered f).eval_rel (Correspondence.answered_agrees f) e c []
    () trivial
  -- The record does not change the result, so the recorded run fails in the same way.
  refine hkeeps.2 .divisionByZero ?_ rfl
  rw [recorded_result_ofFunction, h]
  rfl

/-- The two policies differ by the division by zero and by nothing else. A value
    under the strict one is the value under the lenient one, and any other error
    is the same. The lenient one leads to that error only when the caster answers
    with it. -/
theorem policies_differ_by_divisionByZero :
    let strict : Outcome Id Value := (withBuiltins (.ofFunction f .error)).eval e c
    let lenient : Outcome Id Value := (withBuiltins (.ofFunction f .zero)).eval e c
    (∀ v, strict = pure v → lenient = pure v) ∧
      (∀ err, err ≠ .divisionByZero → strict = throw err → lenient = throw err) ∧
      (lenient = throw .divisionByZero →
        ∃ call ∈ ((withBuiltins (Semantics.ofFunction f .zero).recorded).eval e c).calls (),
          f call.1 call.2 = .error .divisionByZero) ∧
      (strict ≠ lenient → strict = throw .divisionByZero) := by
  intro strict lenient
  have hstop : strict = lenient ∨ strict = throw .divisionByZero := eval_stopping f e c
  refine ⟨fun v hv => ?_, fun err hne herr => ?_, divisionByZero_answered f e c, hstop.resolve_left⟩
  · rcases hstop with heq | hthrow
    · rw [← heq, hv]
    · rw [hv] at hthrow
      cases hthrow
  · rcases hstop with heq | hthrow
    · rw [← heq, herr]
    · rw [herr] at hthrow
      cases hthrow
      exact absurd rfl hne

/-- A quotient by zero is where the two results differ. -/
example (f : Json → ScalarType → Except EvalError Value) :
    let e : Expr := .binary .divide (.literal (.int 1)) (.literal (.int 0))
    ((withBuiltins (.ofFunction f .error)).eval e .empty : Outcome Id Value) =
        throw .divisionByZero ∧
      ((withBuiltins (.ofFunction f .zero)).eval e .empty : Outcome Id Value) =
        pure (.int 0) :=
  ⟨rfl, rfl⟩

end Evaluator

end Criteria
