import Criteria.Expr.Parts
import Criteria.Proofs.Endings

/-!
# Causes of Errors

What an error says about the rule that ended with it.

Errors are handed on as they are. So there is a part of the rule that the error
comes from, and it is raised there by one of the few steps in which evaluation can
fail: looking up a variable, taking data for a value, applying an operator to
values, checking the arguments of a call. `Semantics.Raises` lists these steps, in
whatever monad the caster is computed.

What can come of them is narrowed down by the caster. If it gives values of the
types that it is asked for, then the checks behind a cast never find anything and
no error is a failed type assertion. The caster for JSON data is such a caster, and
as evaluation asks it only to widen values, all that it can refuse is the use of a
truth value as a number and the use of a number or a text as a truth value.
`Value.refusal?` has the reasons. With this each kind of error has a meaning,
which is what `EvalError.Explained` says.

## Main definitions

* `Semantics.Raises`: A part of a rule raises an error itself.
* `Caster.Faithful`: A caster gives values of the types it is asked for.
* `Value.refusal?`, `Value.castText`: Why the caster for JSON data refuses to widen a
  value, and the value as it stands in the error.
* `Semantics.Casts`: A part of a rule casts a value to a type.
* `EvalError.Explained`: There is in the rule what the error says.

## Theorems

* `Evaluator.exists_raises`: An error was raised by a part of the rule.
* `Caster.castValue_ending`: How the cast of a value ends.
* `Caster.json_faithful`: The caster for JSON data is faithful.
* `Semantics.apply_failure`, `Semantics.coerce_failure_of_faithful`: Why operators and
  checked casts fail with a faithful caster.
* `Caster.castValue_json_refusal?`: Which values the caster for JSON data widens.
* `Semantics.Raises.ne_typeAssertion`: With a faithful caster no part raises a type
  assertion.
* `Semantics.Raises.explained`: What a part raises is explained by the rule.
* `Evaluator.errors_have_causes`: So is the error of a rule.
-/

namespace Criteria

section Origins

variable {m : Type → Type} [Monad m] [MonadAttach m]

/-- The errors that a part of a rule raises itself, not those that it hands on. -/
inductive Semantics.Raises (s : Semantics m) (c : Context) : Expr → EvalError → Prop where
  | unbound {name : String} (h : c.get? name = none) :
      Raises s c (.variable name) (.variableNotFound name)
  | noValue {name : String} {j : Json} {err : EvalError} (hj : c.get? name = some j)
      (h : Value.ofJson j = .error err) : Raises s c (.variable name) err
  | operator {op : Operator} {left right : Expr} {x y : Value} {err : EvalError}
      (hx : ((Evaluator.withBuiltins s).eval left c).MayEnd (.ok x))
      (hy : ((Evaluator.withBuiltins s).eval right c).MayEnd (.ok y))
      (h : (s.apply (op.operandType x y) op (.value x) (.value y)).MayEnd (.error err)) :
      Raises s c (.binary op left right) err
  | unknown {function : String} {args : List Expr} (h : function ∉ Builtin.names) :
      Raises s c (.call function args) (.unknownFunction function)
  | arity {function : String} {args : List Expr} {fault : ArityFault}
      (h : Builtin.arityFault? function args.length = some fault) :
      Raises s c (.call function args) (Builtin.arityError function fault)
  | argument {function : String} {args : List Expr} {target : ScalarType} {a : Expr} {v : Value}
      {err : EvalError} (htarget : Builtin.argumentType? function = some target)
      (ha : a ∈ Builtin.castArguments function args)
      (hv : ((Evaluator.withBuiltins s).eval a c).MayEnd (.ok v))
      (h : (s.coerce v target).MayEnd (.error err)) : Raises s c (.call function args) err

variable [LawfulMonad m] [LawfulMonadAttach m]

namespace Evaluator

variable (s : Semantics m) (c : Context)

/-- An error of a call was raised by the call, or it is handed on from an argument. -/
theorem raises_or_handed_on {function : String} {args : List Expr} {err : EvalError}
    (h : ((withBuiltins s).eval (.call function args) c).MayEnd (.error err)) :
    s.Raises c (.call function args) err ∨
      ∃ a ∈ args, ((withBuiltins s).eval a c).MayEnd (.error err) := by
  rw [eval_call] at h
  cases Builtin.call_ending h with
  | unknown hname => exact Or.inl (.unknown hname)
  | arity hfault =>
      rw [List.length_map] at hfault
      exact Or.inl (.arity hfault)
  | argument htarget ha hfail =>
      rw [Builtin.castArguments_map, List.mem_map] at ha
      rcases ha with ⟨a, ha, rfl⟩
      rcases Argument.evalAs_failure hfail with hfail | ⟨v, hv, hcoerce⟩
      · exact Or.inr ⟨a, Builtin.mem_of_mem_castArguments ha, hfail⟩
      · exact Or.inl (.argument htarget ha hv hcoerce)
  | @branch condition yes no taken _ has htaken hfail =>
      -- The branch taken is an argument, and how it ends is how the call ends.
      have hmem : taken ∈ args.map (withBuiltins s).argument := by
        rw [has]
        rcases htaken with rfl | rfl
        · exact List.mem_cons_of_mem _ List.mem_cons_self
        · exact List.mem_cons_of_mem _ (List.mem_cons_of_mem _ List.mem_cons_self)
      rcases List.mem_map.1 hmem with ⟨a, ha, rfl⟩
      exact Or.inr ⟨a, ha, hfail⟩

/-- An error of a rule was raised by one of its parts. -/
theorem exists_raises (e : Expr) (err : EvalError)
    (h : ((withBuiltins s).eval e c).MayEnd (.error err)) :
    ∃ part ∈ e.parts, s.Raises c part err := by
  induction e using Expr.induct generalizing err with
  | literal v =>
      rw [eval_literal] at h
      cases Outcome.eq_of_mayEnd_pure h
  | reference name =>
      rw [eval_variable] at h
      have hlookup := Outcome.eq_of_mayEnd_ofExcept h
      refine ⟨.variable name, Expr.mem_parts_self _, ?_⟩
      unfold Context.lookup at hlookup
      cases hget : c.get? name with
      | none =>
          rw [hget] at hlookup
          cases hlookup
          exact .unbound hget
      | some j =>
          rw [hget] at hlookup
          exact .noValue hget hlookup.symm
  | binary op left right hleft hright =>
      rw [eval_binary] at h
      -- An operand that fails hands its error on, and a part of it has raised that.
      rcases Outcome.mayEnd_bind h with ⟨err', hfail, heq⟩ | ⟨x, hx, h⟩
      · cases heq
        rcases hleft err hfail with ⟨part, hpart, hraises⟩
        exact ⟨part, Expr.mem_parts_binary.2 (Or.inr (Or.inl hpart)), hraises⟩
      rcases Outcome.mayEnd_bind h with ⟨err', hfail, heq⟩ | ⟨y, hy, h⟩
      · cases heq
        rcases hright err hfail with ⟨part, hpart, hraises⟩
        exact ⟨part, Expr.mem_parts_binary.2 (Or.inr (Or.inr hpart)), hraises⟩
      · exact ⟨_, Expr.mem_parts_self _, .operator hx hy h⟩
  | call function args hargs =>
      rcases raises_or_handed_on s c h with hraises | ⟨a, ha, hfail⟩
      · exact ⟨_, Expr.mem_parts_self _, hraises⟩
      · rcases hargs a ha err hfail with ⟨part, hpart, hraises⟩
        exact ⟨part, Expr.mem_parts_call.2 (Or.inr ⟨a, ha, hpart⟩), hraises⟩

end Evaluator

end Origins

/-- Data without a value is null, an array or an object, and the error names it. -/
theorem Value.ofJson_error {j : Json} {err : EvalError} (h : ofJson j = .error err) :
    j.kind ∈ ["null", "array", "object"] ∧ err = .noScalarForm j.text := by
  cases j with
  | null | array items | object members =>
      cases h
      exact ⟨by simp [Json.kind], rfl⟩
  | bool b | string s => cases h
  | number n =>
      simp only [ofJson] at h
      split at h
      · cases h
      · cases h

/-- A cast of data gives a value of its target or is refused. -/
theorem Json.cast_cases (j : Json) (target : ScalarType) :
    (∃ v : Value, v.type = target ∧ j.cast target = .ok v) ∨
      ∃ text reason, j.cast target = .error (.coercion text target reason) := by
  cases target with
  | int64 =>
      cases j with
      | number n =>
          simp only [cast, castInt64]
          split
          · exact Or.inl ⟨.int _, rfl, rfl⟩
          · split
            · exact Or.inr ⟨_, _, rfl⟩
            · split
              · exact Or.inl ⟨.int _, rfl, rfl⟩
              · exact Or.inr ⟨_, _, rfl⟩
      | string s =>
          simp only [cast, castInt64]
          split
          · exact Or.inl ⟨.int _, rfl, rfl⟩
          · exact Or.inr ⟨_, _, rfl⟩
      | null | bool b | array items | object members => exact Or.inr ⟨_, _, rfl⟩
  | float =>
      cases j with
      | number n => exact Or.inl ⟨.float _, rfl, rfl⟩
      | string s =>
          simp only [cast, castFloat]
          split
          · exact Or.inl ⟨.float _, rfl, rfl⟩
          · exact Or.inr ⟨_, _, rfl⟩
      | null | bool b | array items | object members => exact Or.inr ⟨_, _, rfl⟩
  | string =>
      cases j with
      | string s | number n | bool b => exact Or.inl ⟨.string _, rfl, rfl⟩
      | null | array items | object members => exact Or.inr ⟨_, _, rfl⟩
  | bool =>
      cases j with
      | bool b => exact Or.inl ⟨.bool b, rfl, rfl⟩
      | number n | string s =>
          -- Text and numbers are looked for among what stands for true and for false.
          simp only [cast, castBool]
          split
          · exact Or.inl ⟨.bool true, rfl, rfl⟩
          · split
            · exact Or.inl ⟨.bool false, rfl, rfl⟩
            · exact Or.inr ⟨_, _, rfl⟩
      | null | array items | object members => exact Or.inr ⟨_, _, rfl⟩

section Casts

variable {m : Type → Type} [Monad m] [MonadAttach m]

/-- Casters that give values of the types they are asked for, and that leave it to
    operators to find out about others. -/
structure Caster.Faithful (caster : Caster m) : Prop where
  type_eq : ∀ {j target v}, (caster.cast j target).MayEnd (.ok v) → v.type = target
  ne_typeAssertion : ∀ {j target err}, (caster.cast j target).MayEnd (.error err) →
    ∀ left op right, err ≠ .typeAssertion left op right

variable [LawfulMonad m] [LawfulMonadAttach m]

namespace Caster

variable {caster : Caster m} {v : Value} {target : ScalarType}

/-- A cast gives a value of its target without the caster, or is up to the caster, or
    is refused because there is nothing that the caster could be asked. -/
theorem castValue_ending {r : Except EvalError Value}
    (h : (caster.castValue v target).MayEnd r) :
    (∃ w : Value, r = .ok w ∧ w.type = target) ∨ (caster.cast v.toJson target).MayEnd r ∨
      r = .error (.coercion v.text target Refusal.notFinite.text) := by
  by_cases hself : v.type = target
  · rw [← hself, castValue_self] at h
    exact Or.inl ⟨v, Outcome.eq_of_mayEnd_pure h, hself⟩
  by_cases hfin : ∀ x, v = .float x → x.isFinite = true
  · rw [castValue_toJson _ _ _ hself hfin] at h
    exact Or.inr (Or.inl h)
  -- What is left is a double without a form as JSON data, so the caster is not asked.
  · simp only [not_forall, Bool.not_eq_true] at hfin
    rcases hfin with ⟨x, rfl, hinf⟩
    rw [castValue_infinite _ x target (Ne.symm hself) hinf] at h
    split at h
    case isTrue htext => exact Or.inl ⟨_, Outcome.eq_of_mayEnd_pure h, htext.symm⟩
    case isFalse => exact Or.inr (Or.inr (Outcome.eq_of_mayEnd_throw h))

theorem ne_of_castValue_error {err : EvalError}
    (h : (caster.castValue v target).MayEnd (.error err)) : v.type ≠ target := by
  rintro rfl
  rw [castValue_self] at h
  cases Outcome.eq_of_mayEnd_pure h

namespace Faithful

variable (hcaster : caster.Faithful)
include hcaster

theorem type_of_castValue {w : Value} (h : (caster.castValue v target).MayEnd (.ok w)) :
    w.type = target := by
  rcases castValue_ending h with ⟨w', heq, htype⟩ | hcast | heq
  · cases heq
    exact htype
  · exact hcaster.type_eq hcast
  · cases heq

theorem castValue_ne_typeAssertion {err : EvalError}
    (h : (caster.castValue v target).MayEnd (.error err)) (left : String) (op : Operator)
    (right : String) : err ≠ .typeAssertion left op right := by
  rcases castValue_ending h with ⟨w, heq, _⟩ | hcast | heq
  · cases heq
  · exact hcaster.ne_typeAssertion hcast left op right
  · cases heq
    exact EvalError.noConfusion

/-- Reports of its calls do not make a caster give anything else. -/
theorem traced (report : Json → ScalarType → m Unit) : (caster.traced report).Faithful where
  type_eq h := by
    rcases Outcome.mayEnd_bind h with ⟨err, _, heq⟩ | ⟨_, _, hcast⟩
    · cases heq
    · exact hcaster.type_eq hcast
  ne_typeAssertion h := by
    rcases Outcome.mayEnd_bind h with ⟨err, hreport, _⟩ | ⟨_, _, hcast⟩
    · rcases Outcome.ok_of_mayEnd_lift hreport with ⟨_, heq⟩
      cases heq
    · exact hcaster.ne_typeAssertion hcast

end Faithful

end Caster

/-- The caster for JSON data gives values of the types it is asked for, and all its
    errors are refusals. -/
theorem Caster.json_faithful : (Caster.json : Caster m).Faithful where
  type_eq h := by
    rcases Json.cast_cases _ _ with ⟨w, htype, hcast⟩ | ⟨text, reason, hcast⟩
    · cases (Outcome.eq_of_mayEnd_ofExcept h).trans hcast
      exact htype
    · cases (Outcome.eq_of_mayEnd_ofExcept h).trans hcast
  ne_typeAssertion h := by
    rcases Json.cast_cases _ _ with ⟨w, htype, hcast⟩ | ⟨text, reason, hcast⟩
    · cases (Outcome.eq_of_mayEnd_ofExcept h).trans hcast
    · cases (Outcome.eq_of_mayEnd_ofExcept h).trans hcast
      exact fun _ _ _ => EvalError.noConfusion

namespace Semantics

variable {s : Semantics m} (hcaster : s.caster.Faithful)
include hcaster

/-- With a faithful caster an operator on values fails if one of them cannot be cast,
    if it is not supported at the type at which it works, or if it is a division by
    zero that the policy does not allow. -/
theorem apply_failure {kind : ScalarType} {op : Operator} {x y : Value} {err : EvalError}
    (h : (s.apply kind op (.value x) (.value y)).MayEnd (.error err)) :
    (s.caster.castValue x kind).MayEnd (.error err) ∨
      (s.caster.castValue y kind).MayEnd (.error err) ∨
      err = .unsupportedOperator op ∧ op.supportedType? kind = none ∨
      err = .divisionByZero ∧ op = .divide ∧ s.division = .error := by
  rcases s.apply_cases h with ⟨err', hcast, heq⟩ | ⟨a, b, ha, hb, heq⟩
  · cases heq
    exact hcast.imp_right Or.inl
  · have htypes : a.type = kind ∧ b.type = kind :=
      ⟨hcaster.type_of_castValue ha, hcaster.type_of_castValue hb⟩
    -- Two values of the type at which the operator works can be combined.
    cases hcombine : op.combine? s.division kind a b with
    | none => exact absurd htypes (Operator.combine?_eq_none hcombine)
    | some r =>
        rw [hcombine, Option.getD_some] at heq
        rcases op.combine?_cases _ _ _ _ _ hcombine with ⟨w, hw, _⟩ | ⟨hr, hnone⟩ | ⟨hr, hzero⟩
        · cases heq.trans hw
        · cases heq.trans hr
          exact Or.inr (Or.inr (Or.inl ⟨rfl, hnone⟩))
        · cases heq.trans hr
          exact Or.inr (Or.inr (Or.inr ⟨rfl, hzero⟩))

/-- With a faithful caster a checked cast fails only as the caster does. -/
theorem coerce_failure_of_faithful {v : Value} {target : ScalarType} {err : EvalError}
    (h : (s.coerce v target).MayEnd (.error err)) :
    v.type ≠ target ∧ (s.caster.castValue v target).MayEnd (.error err) := by
  rcases s.coerce_failure h with ⟨hne, hcast | ⟨w, hw, htype, _⟩⟩
  · exact ⟨hne, hcast⟩
  -- The check behind the cast finds nothing to object to.
  · exact absurd (hcaster.type_of_castValue hw) htype

/-- With a faithful caster no part of a rule raises a type assertion. -/
theorem Raises.ne_typeAssertion {c : Context} {part : Expr} {err : EvalError}
    (h : s.Raises c part err) (left : String) (op : Operator) (right : String) :
    err ≠ .typeAssertion left op right := by
  cases h with
  | unbound | unknown | arity => exact EvalError.noConfusion
  | noValue hj hvalue =>
      rw [(Value.ofJson_error hvalue).2]
      exact EvalError.noConfusion
  | operator hx hy happly =>
      rcases apply_failure hcaster happly with hcast | hcast | ⟨rfl, _⟩ | ⟨rfl, _⟩
      · exact hcaster.castValue_ne_typeAssertion hcast left op right
      · exact hcaster.castValue_ne_typeAssertion hcast left op right
      · exact EvalError.noConfusion
      · exact EvalError.noConfusion
  | argument htarget ha hv hcoerce =>
      have hcast := (coerce_failure_of_faithful hcaster hcoerce).2
      exact hcaster.castValue_ne_typeAssertion hcast left op right

end Semantics

end Casts

namespace Value

/-- Why the caster for JSON data refuses to widen a value to another type, if it
    does. Truth values are no numbers to it, and few numbers and texts are truth
    values. -/
def refusal? (v : Value) (target : ScalarType) : Option Refusal :=
  match target, v with
  | .int64, .bool _ | .float, .bool _ => some (.unsupportedSource "bool")
  | .bool, .int n => if n = 1 ∨ n = 0 then none else some .notBoolNumber
  | .bool, .float x => some (if x.isFinite then .notBoolNumber else .notFinite)
  | .bool, .string s =>
    let word := (Text.trim s.toList).map Char.toLower
    if word ∈ ["true".toList, "1".toList, "false".toList, "0".toList] then none
    else some .notBoolText
  | _, _ => none

/-- A value as it stands in a refusal, which is its JSON text if it has one. -/
def castText (v : Value) : String :=
  match v with
  | .float x => if x.isFinite then v.toJson.text else v.text
  | _ => v.toJson.text

theorem refusal?_string (v : Value) : v.refusal? .string = none := by
  cases v <;> rfl

end Value

/-- An integer is a truth value if it is one of the two digits for them. -/
theorem Json.castBool_ofInt64 (n : Int64) :
    (∃ b, (Value.int n).refusal? .bool = none ∧ (Json.number (.ofInt64 n)).castBool = .ok b) ∨
      (Value.int n).refusal? .bool = some .notBoolNumber ∧ (Json.number (.ofInt64 n)).castBool =
        .error (.coercion (Value.int n).castText .bool Refusal.notBoolNumber.text) := by
  have hint : (Number.ofInt64 n).toInt64? = some n := Whole.toInt64?_toInt n
  simp only [castBool, hint, Option.some.injEq]
  by_cases hone : n = 1
  · exact Or.inl ⟨true, if_pos (Or.inl hone), if_pos hone⟩
  by_cases hzero : n = 0
  · refine Or.inl ⟨false, if_pos (Or.inr hzero), ?_⟩
    rw [if_neg hone, if_pos hzero]
  · refine Or.inr ⟨if_neg (not_or.2 ⟨hone, hzero⟩), ?_⟩
    rw [if_neg hone, if_neg hzero]
    rfl

/-- Text is one if it is one of the four words for them, apart from blanks and case. -/
theorem Json.castBool_string (s : String) :
    (∃ b, (Value.string s).refusal? .bool = none ∧ (Json.string s).castBool = .ok b) ∨
      (Value.string s).refusal? .bool = some .notBoolText ∧ (Json.string s).castBool =
        .error (.coercion (Value.string s).castText .bool Refusal.notBoolText.text) := by
  simp only [castBool, Value.refusal?, List.mem_cons, List.not_mem_nil, or_false]
  generalize (Text.trim s.toList).map Char.toLower = word
  by_cases htrue : word = "true".toList ∨ word = "1".toList
  · exact Or.inl ⟨true, if_pos (by tauto), if_pos htrue⟩
  by_cases hfalse : word = "false".toList ∨ word = "0".toList
  · refine Or.inl ⟨false, if_pos (by tauto), ?_⟩
    rw [if_neg htrue, if_pos hfalse]
  · refine Or.inr ⟨if_neg (by tauto), ?_⟩
    rw [if_neg htrue, if_neg hfalse]
    rfl

/-- The caster for JSON data widens a value unless there is a reason to refuse it. -/
theorem Caster.castValue_json_refusal? {m : Type → Type} [Monad m] (v : Value)
    (target : ScalarType) (h : v.type.WidensTo target) :
    v.refusal? target = none ∧ Gives target ((Caster.json : Caster m).castValue v target) ∨
      ∃ refusal, v.refusal? target = some refusal ∧
        (Caster.json : Caster m).castValue v target =
          throw (.coercion v.castText target refusal.text) := by
  cases target with
  | string =>
      exact Or.inl ⟨v.refusal?_string, castValue_json v .string (Or.inr (Or.inl rfl))⟩
  | int64 =>
      cases v <;> cases h
      exact Or.inr ⟨_, rfl, rfl⟩
  | float =>
      rcases h with h | h
      · cases v <;> cases h
        exact Or.inr ⟨_, rfl, rfl⟩
      · cases v <;> cases h
        exact Or.inl ⟨rfl, castValue_json _ .float (Or.inr (Or.inr ⟨rfl, rfl⟩))⟩
  | bool =>
      cases v with
      | bool b => exact absurd rfl h
      | int n =>
          have hcast : (Caster.json : Caster m).castValue (.int n) .bool =
              Outcome.ofExcept ((Json.number (.ofInt64 n)).castBool.map .bool) := rfl
          rcases Json.castBool_ofInt64 n with ⟨b, hnone, hb⟩ | ⟨hrefusal, herror⟩
          · rw [hcast, hb]
            exact Or.inl ⟨hnone, .bool b, rfl, rfl⟩
          · rw [hcast, herror]
            exact Or.inr ⟨_, hrefusal, rfl⟩
      | float x =>
          refine Or.inr ⟨_, rfl, ?_⟩
          by_cases hfin : x.isFinite = true
          · rw [castValue_toJson _ _ _ h (fun y hy => Value.float.inj hy ▸ hfin), if_pos hfin,
              Value.castText, if_pos hfin, Value.toJson_float x hfin]
            rfl
          -- There is no data for the caster, and only text would do without.
          · rw [castValue_infinite _ x .bool ScalarType.noConfusion (Bool.not_eq_true _ ▸ hfin),
              if_neg (by decide), if_neg hfin, Value.castText, if_neg hfin]
      | string s =>
          have hcast : (Caster.json : Caster m).castValue (.string s) .bool =
              Outcome.ofExcept ((Json.string s).castBool.map .bool) := rfl
          rcases Json.castBool_string s with ⟨b, hnone, hb⟩ | ⟨hrefusal, herror⟩
          · rw [hcast, hb]
            exact Or.inl ⟨hnone, .bool b, rfl, rfl⟩
          · rw [hcast, herror]
            exact Or.inr ⟨_, hrefusal, rfl⟩

/-- Built-in functions take arguments at types that all other values are widened to. -/
theorem Builtin.widensTo_of_argumentType? {function : String} {source target : ScalarType}
    (h : argumentType? function = some target) (hne : source ≠ target) :
    source.WidensTo target := by
  unfold argumentType? at h
  split at h <;> cases h <;> exact hne

/-- An operator that is not supported where two operands ask for it is neither an
    equality nor logical. Equality is supported at all types, and logical operators ask
    for the type that they have. -/
theorem Operator.not_mem_of_unsupported {op : Operator} {x y : Value}
    (h : op.supportedType? (op.operandType x y) = none) :
    op ∉ [.equal, .notEqual, .and, .or] := by
  intro hmem
  simp only [List.mem_cons, List.not_mem_nil, or_false] at hmem
  rcases hmem with rfl | rfl | rfl | rfl
  · cases hkind : equal.operandType x y <;> rw [hkind] at h <;> cases h
  · cases hkind : notEqual.operandType x y <;> rw [hkind] at h <;> cases h
  · cases h
  · cases h

/-- The casts that a part of a rule asks for: an operator casts its operands to the
    type at which it works, and a function its arguments to the type at which it takes
    them. Values of that type already need no cast. -/
inductive Semantics.Casts (s : Semantics Id) (c : Context) : Expr → Value → ScalarType → Prop where
  | left {op : Operator} {left right : Expr} {x y : Value}
      (hx : (Evaluator.withBuiltins s).eval left c = pure x)
      (hy : (Evaluator.withBuiltins s).eval right c = pure y)
      (h : x.type ≠ op.operandType x y) :
      Casts s c (.binary op left right) x (op.operandType x y)
  | right {op : Operator} {left right : Expr} {x y : Value}
      (hx : (Evaluator.withBuiltins s).eval left c = pure x)
      (hy : (Evaluator.withBuiltins s).eval right c = pure y)
      (h : y.type ≠ op.operandType x y) :
      Casts s c (.binary op left right) y (op.operandType x y)
  | argument {function : String} {args : List Expr} {target : ScalarType} {a : Expr} {v : Value}
      (htarget : Builtin.argumentType? function = some target)
      (ha : a ∈ Builtin.castArguments function args)
      (hv : (Evaluator.withBuiltins s).eval a c = pure v) (h : v.type ≠ target) :
      Casts s c (.call function args) v target

/-- The casts that a part of a rule asks for only ever widen. -/
theorem Semantics.Casts.widensTo {s : Semantics Id} {c : Context} {part : Expr} {v : Value}
    {target : ScalarType} (h : s.Casts c part v target) : v.type.WidensTo target := by
  cases h with
  | left hx hy hne => exact (Operator.widensTo_operandType_left _ _ _).resolve_left hne
  | right hx hy hne => exact (Operator.widensTo_operandType_right _ _ _).resolve_left hne
  | argument htarget ha hv hne => exact Builtin.widensTo_of_argumentType? htarget hne

/-- There is in a rule, or in what its variables stand for, what an error of it says. -/
def EvalError.Explained (s : Semantics Id) (c : Context) (e : Expr) : EvalError → Prop
  | .variableNotFound name => .variable name ∈ e.parts ∧ c.get? name = none
  | .noScalarForm text => ∃ name j, .variable name ∈ e.parts ∧ c.get? name = some j ∧
      j.kind ∈ ["null", "array", "object"] ∧ text = j.text
  | .unknownFunction function =>
      (∃ args, .call function args ∈ e.parts) ∧ function ∉ Builtin.names
  | .invalidArguments function message => ∃ args fault, .call function args ∈ e.parts ∧
      Builtin.arityFault? function args.length = some fault ∧ message = fault.text
  | .unsupportedOperator op =>
      (∃ left right, .binary op left right ∈ e.parts) ∧ op ∉ [.equal, .notEqual, .and, .or]
  | .divisionByZero => s.division = .error ∧ ∃ left right, .binary .divide left right ∈ e.parts
  | .coercion text target reason => target ≠ .string ∧ ∃ part ∈ e.parts, ∃ v refusal,
      s.Casts c part v target ∧ v.refusal? target = some refusal ∧ text = v.castText ∧
      reason = refusal.text
  | .typeAssertion _ _ _ => False

namespace Semantics

variable {division : DivisionPolicy} {c : Context} {e part : Expr} {err : EvalError}

/-- A cast that fails for JSON data is explained by the part that asks for it. -/
theorem Casts.explained {s : Semantics Id} {v : Value} {target : ScalarType}
    (h : s.Casts c part v target) (hpart : part ∈ e.parts)
    (hfail : ((Caster.json : Caster Id).castValue v target).MayEnd (.error err)) :
    err.Explained s c e := by
  rcases Caster.castValue_json_refusal? (m := Id) v target h.widensTo with
    ⟨_, w, _, hw⟩ | ⟨refusal, hrefusal, herror⟩
  · rw [hw] at hfail
    cases Outcome.eq_of_mayEnd_pure hfail
  · rw [herror] at hfail
    cases Outcome.eq_of_mayEnd_throw hfail
    have htarget : target ≠ .string := by
      rintro rfl
      rw [Value.refusal?_string] at hrefusal
      cases hrefusal
    exact ⟨htarget, part, hpart, v, refusal, h, hrefusal, rfl, rfl⟩

/-- What a part of a rule raises for JSON data is explained by the rule. -/
theorem Raises.explained (h : (⟨Caster.json, division⟩ : Semantics Id).Raises c part err)
    (hpart : part ∈ e.parts) : err.Explained ⟨Caster.json, division⟩ c e := by
  cases h with
  | unbound hnone => exact ⟨hpart, hnone⟩
  | noValue hj hvalue =>
      rcases Value.ofJson_error hvalue with ⟨hkind, rfl⟩
      exact ⟨_, _, hpart, hj, hkind, rfl⟩
  | operator hx hy happly =>
      rcases apply_failure Caster.json_faithful happly with
        hcast | hcast | ⟨rfl, hnone⟩ | ⟨rfl, rfl, hpolicy⟩
      · exact (Casts.left hx hy (Caster.ne_of_castValue_error hcast)).explained hpart hcast
      · exact (Casts.right hx hy (Caster.ne_of_castValue_error hcast)).explained hpart hcast
      · exact ⟨⟨_, _, hpart⟩, Operator.not_mem_of_unsupported hnone⟩
      · exact ⟨hpolicy, _, _, hpart⟩
  | unknown hname => exact ⟨⟨_, hpart⟩, hname⟩
  | arity hfault => exact ⟨_, _, hpart, hfault, rfl⟩
  | argument htarget ha hv hcoerce =>
      rcases coerce_failure_of_faithful Caster.json_faithful hcoerce with ⟨hne, hcast⟩
      exact (Casts.argument htarget ha hv hne).explained hpart hcast

end Semantics

namespace Evaluator

/-- An error of a rule for JSON data is explained by the rule and the data that its
    variables stand for. A type assertion has no explanation, so it is never the
    error; and this goes for every caster that is faithful, whatever state it keeps. -/
theorem errors_have_causes (division : DivisionPolicy) (e : Expr) (c : Context) :
    (∀ err, ((withBuiltins ⟨Caster.json, division⟩).eval e c : Outcome Id Value) = throw err →
      err.Explained ⟨Caster.json, division⟩ c e) ∧
    ∀ (σ : Type) (s : Semantics (StateM σ)), s.caster.Faithful → ∀ init left op right,
      (((withBuiltins s).eval e c).run.run init).1 ≠ .error (.typeAssertion left op right) := by
  refine ⟨fun err h => ?_, fun σ s hcaster init left op right h => ?_⟩
  · have hend := (Outcome.mayEnd_iff_run_eq _ (.error err)).2 h
    rcases exists_raises _ c e err hend with ⟨part, hpart, hraises⟩
    exact hraises.explained hpart
  · have hend := (Outcome.mayEnd_iff_exists_state _ _).2 ⟨init, h⟩
    rcases exists_raises s c e _ hend with ⟨part, _, hraises⟩
    exact hraises.ne_typeAssertion hcaster left op right rfl

/-- `1 + len("ab") + true` fails, since `true` is no number. Counting its calls does not
    make the caster any less faithful. -/
theorem errors_have_causes_boolean_summand :
    let e : Expr := .binary .add (.binary .add (.literal (.int 1))
      (.call "len" [.literal (.string "ab")])) (.literal (.bool true))
    let err : EvalError := .coercion "true" .int64 "unsupported source type bool"
    let s : Semantics (StateM Nat) := ⟨Caster.json.traced fun _ _ => modify (· + 1), .zero⟩
    ((withBuiltins ⟨Caster.json, .zero⟩).eval e .empty : Outcome Id Value) = throw err ∧
      err.Explained ⟨Caster.json, .zero⟩ .empty e ∧
      s.caster.Faithful ∧ ∀ init left op right,
        (((withBuiltins s).eval e .empty).run.run init).1 ≠
          .error (.typeAssertion left op right) := by
  intro e err s
  have hfail : ((withBuiltins ⟨Caster.json, .zero⟩).eval e .empty : Outcome Id Value) =
      throw err := rfl
  have hcaster : s.caster.Faithful := Caster.json_faithful.traced _
  have hcauses := errors_have_causes .zero e .empty
  exact ⟨hfail, hcauses.1 err hfail, hcaster, hcauses.2 Nat s hcaster⟩

end Evaluator

end Criteria
