import Criteria.Proofs.Endings

/-!
# Types of Results

The types that the value of a rule can have, whatever the caster does.

A typed rule has one type, and that depends on a caster which does what it should.
Here nothing is asked of the caster: it may refuse any cast, and it may give values
of types that it was not asked for. What is left is a set of types for every rule.
It is read off the rule and its context without evaluating anything. Arithmetic has
a type for each pair of types that its operands can have, a conditional has the
types of both of its branches, and all else has one type or, where it can only fail,
none.

That the value of a rule is of one of these types rests on the checks behind every
cast. An operator looks at the type of both operands again before it computes, and
the value of an argument is checked before a function sees it. So a wrong answer of
the caster never becomes part of a value; and the truth values and texts that
functions ask for are the checked ones, with no failure added.

## Main definitions

* `ScalarType.arithmetic?`: The type of arithmetic on operands of two types.
* `Operator.possibleTypes`, `Builtin.possibleTypes`: The types of what operators and
  functions give, by those of what they are applied to.
* `Expr.possibleTypes`: The types that the value of a rule can have.

## Theorems

* `Operator.mem_possibleTypes`: What an operator gives is of a type foreseen for it.
* `Evaluator.type_mem_possibleTypes`: So is the value of a rule.
* `Semantics.coerce_bind`: A checked cast needs no further check.
* `Argument.map_evalBool`, `Argument.map_evalString`: Truth values and texts of
  arguments are their values at these types.
* `Evaluator.result_types_sound`: All this of rules, from any state of the caster.
-/

namespace Criteria

/-- The type of arithmetic on operands of two types. There is none on text, and none
    on two truth values. -/
def ScalarType.arithmetic? (a b : ScalarType) : Option ScalarType :=
  if a = .string ∨ b = .string ∨ a = .bool ∧ b = .bool then none
  else some (if a = .float ∨ b = .float then .float else .int64)

/-- The types of what an operator gives, by the types that its operands can have. -/
def Operator.possibleTypes (op : Operator) (left right : List ScalarType) : List ScalarType :=
  if op.isArithmetic then left.flatMap fun a => right.filterMap fun b => a.arithmetic? b
  else [.bool]

/-- The types of what a built-in function gives, by the types that its arguments can
    have. -/
def Builtin.possibleTypes : String → List (List ScalarType) → List ScalarType
  | "and", _ | "or", _ | "not", _ | "contains", _ => [.bool]
  | "len", _ => [.int64]
  | "if", types => types.getD 1 [] ++ types.getD 2 []
  | _, _ => []

namespace Expr

mutual

/-- The types that the value of a rule can have in a context. -/
def possibleTypes (c : Context) : Expr → List ScalarType
  | .literal v => [v.type]
  | .variable name =>
    match (c.lookup name).bind Value.ofJson with
    | .ok v => [v.type]
    | .error _ => []
  | .binary op left right => op.possibleTypes (left.possibleTypes c) (right.possibleTypes c)
  | .call function args => Builtin.possibleTypes function (argumentTypes c args)

/-- The types that the values of arguments can have. -/
def argumentTypes (c : Context) : List Expr → List (List ScalarType)
  | [] => []
  | e :: rest => e.possibleTypes c :: argumentTypes c rest

end

theorem argumentTypes_eq_map (c : Context) (args : List Expr) :
    argumentTypes c args = args.map (possibleTypes c) := by
  induction args with
  | nil => rw [argumentTypes, List.map_nil]
  | cons e rest ih => rw [argumentTypes, List.map_cons, ih]

end Expr

namespace Operator

/-- An operator that does not compute a number gives a truth value wherever it is
    supported. -/
theorem supportedType?_of_not_arithmetic {op : Operator} {kind t : ScalarType}
    (hop : op.isArithmetic = false) (h : op.supportedType? kind = some t) : t = .bool := by
  cases op with
  | add | subtract | multiply | divide => cases hop
  | _ => cases kind <;> first | exact (Option.some.inj h).symm | cases h

/-- Where arithmetic is supported at the type that two operands ask for, that type is
    the one foreseen for them. -/
theorem arithmetic?_of_supportedType? {op : Operator} {x y : Value} {t : ScalarType}
    (hop : op.isArithmetic = true) (h : op.supportedType? (op.operandType x y) = some t) :
    x.type.arithmetic? y.type = some t := by
  have hlogical : op.isLogical = false := by cases op <;> first | rfl | cases hop
  have hequality : op.isEquality = false := by cases op <;> first | rfl | cases hop
  by_cases hnone : x.type = .string ∨ y.type = .string ∨ x.type = .bool ∧ y.type = .bool
  · -- Text and two truth values are combined at types that have no arithmetic.
    have hkind : op.operandType x y = .string ∨ op.operandType x y = .bool := by
      rcases hnone with hx | hy | ⟨hx, hy⟩
      · exact Or.inl (by simp [operandType, hlogical, hx])
      · exact Or.inl (by simp [operandType, hlogical, hy])
      · exact Or.inr (by simp [operandType, hx, hy])
    rcases hkind with hkind | hkind
    · rw [hkind, supportedType?, hequality] at h
      cases h
    · rw [hkind, supportedType?, hequality, hlogical] at h
      cases h
  · have hkind : op.operandType x y =
        if x.type = .float ∨ y.type = .float then .float else .int64 := by
      rw [operandType, hlogical, if_neg Bool.false_ne_true, if_neg (by tauto)]
      by_cases hfloat : x.type = .float ∨ y.type = .float
      · rw [if_pos hfloat, if_pos hfloat]
      · rw [if_neg hfloat, if_neg hfloat, if_pos]
        cases x <;> cases y <;> simp_all [Value.type]
    rw [hkind] at h
    rw [ScalarType.arithmetic?, if_neg hnone, ← h]
    -- Both types of numbers have arithmetic, and each gives numbers of its own.
    split
    · rw [supportedType?, if_pos hop]
    · rw [supportedType?, if_pos hop]

/-- What an operator gives is of a type foreseen for it. -/
theorem mem_possibleTypes {op : Operator} {x y : Value} {t : ScalarType}
    {left right : List ScalarType} (h : op.supportedType? (op.operandType x y) = some t)
    (hx : x.type ∈ left) (hy : y.type ∈ right) : t ∈ op.possibleTypes left right := by
  unfold possibleTypes
  cases hop : op.isArithmetic with
  | true =>
      rw [if_pos rfl, List.mem_flatMap]
      refine ⟨x.type, hx, List.mem_filterMap.2 ⟨y.type, hy, ?_⟩⟩
      exact arithmetic?_of_supportedType? hop h
  | false =>
      rw [if_neg Bool.false_ne_true, supportedType?_of_not_arithmetic hop h]
      exact List.mem_cons_self

end Operator

section Evaluation

variable {m : Type → Type} [Monad m] [LawfulMonad m]

/-- A step after a checked cast that changes nothing about values of the type that was
    asked for changes nothing at all. -/
theorem Semantics.coerce_bind (s : Semantics m) (v : Value) (target : ScalarType)
    {f : Value → Outcome m Value} (hf : ∀ w : Value, w.type = target → f w = pure w) :
    s.coerce v target >>= f = s.coerce v target := by
  unfold coerce
  split
  case isTrue htype => rw [pure_bind, hf v htype]
  case isFalse =>
    rw [bind_assoc]
    refine bind_congr fun w => ?_
    split
    case isTrue htype => rw [pure_bind, hf w htype]
    case isFalse => exact ExceptT.bind_throw f

namespace Argument

/-- The truth value that an argument has is its value at that type. Once the value is
    checked nothing is left to fail. -/
theorem map_evalBool (s : Semantics m) (a : Argument m) (c : Context) :
    Value.bool <$> a.evalBool s c = a.evalAs s c .bool := by
  rw [evalBool, map_bind, evalAs, bind_assoc]
  refine bind_congr fun v => s.coerce_bind v .bool fun w hw => ?_
  cases w <;> cases hw
  exact map_pure _ _

theorem map_evalString (s : Semantics m) (a : Argument m) (c : Context) :
    Value.string <$> a.evalString s c = a.evalAs s c .string := by
  rw [evalString, map_bind, evalAs, bind_assoc]
  refine bind_congr fun v => s.coerce_bind v .string fun w hw => ?_
  cases w <;> cases hw
  exact map_pure _ _

end Argument

variable [MonadAttach m] [LawfulMonadAttach m]

namespace Evaluator

variable (s : Semantics m) (c : Context)

/-- A call gives a value of a type foreseen for it, if its arguments do. -/
theorem type_mem_of_call {function : String} {args : List Expr} {v : Value}
    (hargs : ∀ a ∈ args, ∀ w : Value, ((withBuiltins s).eval a c).MayEnd (.ok w) →
      w.type ∈ a.possibleTypes c)
    (h : ((withBuiltins s).eval (.call function args) c).MayEnd (.ok v)) :
    v.type ∈ (Expr.call function args).possibleTypes c := by
  rw [eval_call] at h
  rw [Expr.possibleTypes, Expr.argumentTypes_eq_map]
  cases Builtin.call_ending h with
  | truth hfunction b =>
      have htypes : ∀ types, Builtin.possibleTypes function types = [.bool] := by
        intro types
        simp only [List.mem_cons, List.not_mem_nil, or_false] at hfunction
        rcases hfunction with rfl | rfl | rfl | rfl <;> rfl
      rw [htypes]
      exact List.mem_cons_self
  | number n => exact List.mem_cons_self
  | @branch condition yes no a _ has ha hbranch =>
      simp only [List.map_eq_cons_iff, List.map_eq_nil_iff] at has
      rcases has with ⟨econdition, _, rfl, rfl, eyes, _, rfl, rfl, eno, _, rfl, rfl, rfl⟩
      -- One of the two branches was evaluated, and the types of both count.
      rcases ha with rfl | rfl
      · exact List.mem_append_left _ (hargs eyes (by simp) v hbranch)
      · exact List.mem_append_right _ (hargs eno (by simp) v hbranch)

/-- The value of a rule is of a type foreseen for it. -/
theorem type_mem_possibleTypes (e : Expr) (v : Value)
    (h : ((withBuiltins s).eval e c).MayEnd (.ok v)) : v.type ∈ e.possibleTypes c := by
  induction e using Expr.induct generalizing v with
  | literal w =>
      rw [eval_literal] at h
      cases Outcome.eq_of_mayEnd_pure h
      rw [Expr.possibleTypes]
      exact List.mem_cons_self
  | reference name =>
      rw [eval_variable] at h
      rw [Expr.possibleTypes, ← Outcome.eq_of_mayEnd_ofExcept h]
      exact List.mem_cons_self
  | binary op left right hleft hright =>
      rw [eval_binary] at h
      rw [Expr.possibleTypes]
      rcases Outcome.mayEnd_bind h with ⟨err, _, heq⟩ | ⟨x, hx, h⟩
      · cases heq
      rcases Outcome.mayEnd_bind h with ⟨err, _, heq⟩ | ⟨y, hy, h⟩
      · cases heq
      rcases s.apply_cases h with ⟨err, _, heq⟩ | ⟨a, b, _, _, heq⟩
      · cases heq
      cases hcombine : op.combine? s.division (op.operandType x y) a b with
      | none =>
          rw [hcombine] at heq
          cases heq
      | some r =>
          rw [hcombine, Option.getD_some] at heq
          rcases op.combine?_cases _ _ _ _ _ hcombine with ⟨w, hw, htype⟩ | ⟨hr, _⟩ | ⟨hr, _⟩
          · cases heq.trans hw
            exact Operator.mem_possibleTypes htype (hleft x hx) (hright y hy)
          · cases heq.trans hr
          · cases heq.trans hr
  | call function args hargs => exact type_mem_of_call s c hargs h

end Evaluator

end Evaluation

namespace Evaluator

/-- A value that evaluation gives is of a type foreseen for the rule, and a value at a
    type is of that type. Truth values and texts of rules are their values at these
    types, with the same errors and the same effects, so asking for them adds no
    failure of its own. The caster may be in any state and answer whatever it likes. -/
theorem result_types_sound {σ : Type} (s : Semantics (StateM σ)) (e : Expr) (c : Context) :
    (∀ init v, (((withBuiltins s).eval e c).run.run init).1 = .ok v →
      v.type ∈ e.possibleTypes c) ∧
    (∀ init target v, (((withBuiltins s).evalAs e c target).run.run init).1 = .ok v →
      v.type = target) ∧
    Value.bool <$> (withBuiltins s).evalBool e c = (withBuiltins s).evalAs e c .bool ∧
    Value.string <$> (withBuiltins s).evalString e c = (withBuiltins s).evalAs e c .string := by
  refine ⟨fun init v h => ?_, fun init target v h => ?_, ?_, ?_⟩
  · exact type_mem_possibleTypes s c e v ((Outcome.mayEnd_iff_exists_state _ _).2 ⟨init, h⟩)
  · exact Argument.type_of_evalAs ((Outcome.mayEnd_iff_exists_state _ _).2 ⟨init, h⟩)
  · exact Argument.map_evalBool s _ c
  · exact Argument.map_evalString s _ c

/-- A caster that gives `7` for anything makes `true + 2` an integer, and the value of
    `if(true, true + 2, 2.5)` one of two numbers. -/
theorem result_types_sound_constant_caster :
    let s : Semantics (StateM Nat) := ⟨Caster.ofFunction fun _ _ => .ok (.int 7), .zero⟩
    let e : Expr := .call "if" [.literal (.bool true),
      .binary .add (.literal (.bool true)) (.literal (.int 2)), .literal (.float 2.5)]
    e.possibleTypes .empty = [.int64, .float] ∧
      (((withBuiltins s).eval e .empty).run.run 0).1 = .ok (.int 9) ∧
      (Value.int 9).type ∈ e.possibleTypes .empty := by
  intro s e
  have hvalue : (((withBuiltins s).eval e .empty).run.run 0).1 = .ok (.int 9) := rfl
  exact ⟨rfl, hvalue, (result_types_sound s e .empty).1 0 _ hvalue⟩

end Evaluator

end Criteria
