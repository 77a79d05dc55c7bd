import Criteria.Proofs.Division

/-!
# Typed Rules

Rules that cannot fail.

Most rules fail on some data: text is not a numeral, a branch of a conditional
has a type that its user did not expect, an operator has no meaning at the type
of its operands. For a context at hand much of this can be seen beforehand. `type?`
gives a rule its type, or none if it may go wrong. Nothing is evaluated for it,
apart from looking up variables, and both branches of a conditional count.

A rule with a type has a value of that type. This is shown for the caster for
JSON data and the policy that puts zero for a quotient, and carries over to the
other policy as far as the two agree. It rests on three facts: operands of a
typed operator are cast only in ways that always succeed, to a type at which the
operator is supported, and what it gives there has the type that was foreseen.

## Main definitions

* `Operator.resultType?`, `Builtin.resultType?`: The type of what operators and
  functions give, by the types of what they are applied to.
* `Expr.type?`: The type of a rule in a context.
* `ScalarType.Converts`: Casts that always succeed.
* `Operator.supportedType?`: The type of what an operator gives at a type.
* `Gives`: Computations that give a value of a type.
* `Semantics.lenient`: The meaning of operators that the types are for.

## Theorems

* `Caster.castValue_json`: Those casts do succeed.
* `Operator.converts_operandType`: Operands of a typed operator need no others.
* `Operator.combine?_lenient`: A supported operator gives a value.
* `Argument.evalBool_gives`, `Argument.evalString_gives`: Typed arguments have
  truth values and texts.
* `Semantics.apply_gives`: A typed operator gives a value.
* `Builtin.call_gives`: A typed call of a built-in function does.
* `Evaluator.eval_gives`: A typed rule does under the lenient policy.
* `Evaluator.typed_rules_never_fail`: And what it does under the strict one.
-/

namespace Criteria

namespace ScalarType

/-- Whether values of a type are numbers. -/
def isNumeric : ScalarType → Bool
  | .int64 | .float => true
  | .string | .bool => false

/-- Whether values of one type always have a counterpart of another: they are of
    it already, become text, or are integers that become doubles. -/
def Converts (source target : ScalarType) : Prop :=
  source = target ∨ target = .string ∨ source = .int64 ∧ target = .float

end ScalarType

namespace Operator

/-- The type of what an operator gives, by the types of its operands. -/
def resultType? (op : Operator) (a b : ScalarType) : Option ScalarType :=
  match op with
  | .greater | .less | .greaterEqual | .lessEqual =>
    if a.isNumeric ∧ b.isNumeric then some .bool else none
  | .equal | .notEqual =>
    if a.isNumeric ∧ b.isNumeric ∨ a = .bool ∧ b = .bool ∨ a = .string ∨ b = .string then
      some .bool
    else none
  | .add | .subtract | .multiply | .divide =>
    if a.isNumeric ∧ b.isNumeric then
      some (if a = .float ∨ b = .float then .float else .int64)
    else none
  | .and | .or => if a = .bool ∧ b = .bool then some .bool else none

/-- The type of what an operator gives at a type, if it is supported there. -/
def supportedType? (op : Operator) : ScalarType → Option ScalarType
  | .int64 =>
    if op.isArithmetic then some .int64 else if op.isComparison then some .bool else none
  | .float =>
    if op.isArithmetic then some .float else if op.isComparison then some .bool else none
  | .string => if op.isEquality then some .bool else none
  | .bool => if op.isEquality ∨ op.isLogical then some .bool else none

end Operator

/-- The type of what a built-in function gives, by the types of its arguments. -/
def Builtin.resultType? : String → List ScalarType → Option ScalarType
  | "and", t :: ts => if ∀ t' ∈ t :: ts, t' = .bool then some .bool else none
  | "or", t :: ts => if ∀ t' ∈ t :: ts, t' = .bool then some .bool else none
  | "not", [t] => if t = .bool then some .bool else none
  | "if", [condition, yes, no] => if condition = .bool ∧ yes = no then some yes else none
  | "len", [_] => some .int64
  | "contains", [_, _] => some .bool
  | _, _ => none

namespace Expr

mutual

/-- The type of a rule in a context. -/
def type? (c : Context) : Expr → Option ScalarType
  | .literal v => some v.type
  | .variable name => do
    let j ← c.get? name
    (Value.ofJson j).toOption.map Value.type
  | .binary op left right => do
    let a ← left.type? c
    let b ← right.type? c
    op.resultType? a b
  | .call function args => do
    let ts ← types? c args
    Builtin.resultType? function ts

/-- The types of arguments, if each has one. -/
def types? (c : Context) : List Expr → Option (List ScalarType)
  | [] => some []
  | e :: rest => do
    let t ← e.type? c
    let ts ← types? c rest
    return t :: ts

end

/-- Arguments have types if each of them has one. -/
theorem types?_forall₂ {c : Context} {args : List Expr} {ts : List ScalarType}
    (h : types? c args = some ts) : List.Forall₂ (fun e t => e.type? c = some t) args ts := by
  induction args generalizing ts with
  | nil =>
      rw [types?, Option.some.injEq] at h
      exact h ▸ .nil
  | cons e rest ih =>
      simp only [types?, Option.bind_eq_bind, Option.bind_eq_some_iff, Option.pure_def,
        Option.some.injEq] at h
      rcases h with ⟨t, ht, ts', hts', rfl⟩
      exact .cons ht (ih hts')

end Expr

/-- Computations that give a value of a type. -/
def Gives {m : Type → Type} [Monad m] (t : ScalarType) (x : Outcome m Value) : Prop :=
  ∃ v : Value, v.type = t ∧ x = pure v

section Operations

variable {m : Type → Type} [Monad m]

/-- Arguments whose types are all the same give values of that type. -/
theorem gives_of_forall {c : Context} {t : ScalarType} {as : List (Argument m)}
    {ts : List ScalarType} (hargs : List.Forall₂ (fun a t => Gives t (a.eval c)) as ts)
    (h : ∀ t' ∈ ts, t' = t) : ∀ a ∈ as, Gives t (a.eval c) := by
  induction hargs with
  | nil => exact fun a ha => absurd ha List.not_mem_nil
  | cons hfirst _ ih =>
      rcases List.forall_mem_cons.1 h with ⟨rfl, hrest⟩
      exact List.forall_mem_cons.2 ⟨hfirst, ih hrest⟩

/-- The caster for JSON data carries out every cast of the kind. A double that is
    not finite becomes text without it. -/
theorem Caster.castValue_json (v : Value) (target : ScalarType) (h : v.type.Converts target) :
    Gives target ((Caster.json : Caster m).castValue v target) := by
  by_cases hself : v.type = target
  · rw [← hself, castValue_self]
    exact ⟨v, rfl, rfl⟩
  rcases h with hself' | rfl | ⟨hint, rfl⟩
  · exact absurd hself' hself
  · cases v with
    | int n =>
        rw [castValue_toJson _ _ _ hself nofun]
        exact ⟨.string _, rfl, rfl⟩
    | float x =>
        by_cases hfin : x.isFinite = true
        · rw [castValue_toJson _ _ _ hself (fun y hy => Value.float.inj hy ▸ hfin),
            Value.toJson_float x hfin]
          exact ⟨.string _, rfl, rfl⟩
        -- The text is there even when there is no form as JSON data.
        · rw [Bool.not_eq_true] at hfin
          rw [castValue_infinite _ x .string ScalarType.noConfusion hfin, if_pos rfl]
          exact ⟨.string _, rfl, rfl⟩
    | string s => exact absurd rfl hself
    | bool b =>
        rw [castValue_toJson _ _ _ hself nofun]
        exact ⟨.string _, rfl, rfl⟩
  · cases v with
    | int n =>
        rw [castValue_toJson _ _ _ hself nofun]
        exact ⟨.float _, rfl, rfl⟩
    | float x => cases hint
    | string s => cases hint
    | bool b => cases hint

end Operations

namespace Operator

/-- Two numbers are combined as doubles if one of them is a double, and as
    integers otherwise. -/
theorem operandType_numeric (op : Operator) (hlogical : op.isLogical = false) (x y : Value)
    (hx : x.type.isNumeric = true) (hy : y.type.isNumeric = true) :
    op.operandType x y = if x.type = .float ∨ y.type = .float then .float else .int64 := by
  have hstring : ¬(x.type = .string ∨ y.type = .string) := by
    rintro (h | h)
    · rw [h] at hx
      cases hx
    · rw [h] at hy
      cases hy
  -- The tests for a logical operator and for text fail, the one for doubles is left.
  rw [operandType, hlogical, if_neg Bool.false_ne_true, if_neg hstring]
  by_cases hfloat : x.type = .float ∨ y.type = .float
  · rw [if_pos hfloat, if_pos hfloat]
  · rw [if_neg hfloat, if_neg hfloat, if_pos]
    cases x with
    | int n => exact Or.inl rfl
    | float r => exact absurd (Or.inl rfl) hfloat
    | string s => cases hx
    | bool b => cases hx

/-- A number is cast to the type at which two numbers are combined without fail. -/
theorem converts_numeric (a b : ScalarType) (ha : a.isNumeric = true) :
    a.Converts (if a = .float ∨ b = .float then .float else .int64) := by
  cases a with
  | int64 =>
      by_cases hb : b = .float
      · rw [if_pos (Or.inr hb)]
        exact Or.inr (Or.inr ⟨rfl, rfl⟩)
      · rw [if_neg (by simp [hb])]
        exact Or.inl rfl
  | float =>
      rw [if_pos (Or.inl rfl)]
      exact Or.inl rfl
  | string => cases ha
  | bool => cases ha

theorem converts_of_numeric (op : Operator) (hlogical : op.isLogical = false) (x y : Value)
    (hx : x.type.isNumeric = true) (hy : y.type.isNumeric = true) :
    x.type.Converts (op.operandType x y) ∧ y.type.Converts (op.operandType x y) := by
  refine ⟨?_, ?_⟩
  · rw [operandType_numeric op hlogical x y hx hy]
    exact converts_numeric _ _ hx
  · rw [operandType_comm, operandType_numeric op hlogical y x hy hx]
    exact converts_numeric _ _ hy

/-- Operands of an equality become text if one of them is, and otherwise both are
    numbers or both are truth values. -/
theorem converts_of_equality (op : Operator) (hequality : op.isEquality = true) (x y : Value)
    (h : x.type.isNumeric = true ∧ y.type.isNumeric = true ∨ x.type = .bool ∧ y.type = .bool ∨
      x.type = .string ∨ y.type = .string) :
    (x.type.Converts (op.operandType x y) ∧ y.type.Converts (op.operandType x y)) ∧
      op.supportedType? (op.operandType x y) = some .bool := by
  have hlogical : op.isLogical = false := by cases op <;> first | rfl | cases hequality
  -- Equality is the one kind of operator that every type has.
  have hsupported : ∀ kind, op.supportedType? kind = some .bool := by
    intro kind
    cases op <;> cases kind <;> first | rfl | cases hequality
  refine ⟨?_, hsupported _⟩
  rcases h with ⟨hx, hy⟩ | ⟨hx, hy⟩ | hstring
  · exact op.converts_of_numeric hlogical x y hx hy
  · have hkind : op.operandType x y = .bool := by simp [operandType, hx, hy]
    rw [hkind, hx, hy]
    exact ⟨Or.inl rfl, Or.inl rfl⟩
  · have hkind : op.operandType x y = .string := by simp [operandType, hlogical, hstring]
    rw [hkind]
    exact ⟨Or.inr (Or.inl rfl), Or.inr (Or.inl rfl)⟩

/-- Operands of a typed operator are cast in ways that succeed, and to a type at
    which the operator is supported. -/
theorem converts_operandType (op : Operator) (x y : Value) (t : ScalarType)
    (h : op.resultType? x.type y.type = some t) :
    (x.type.Converts (op.operandType x y) ∧ y.type.Converts (op.operandType x y)) ∧
      op.supportedType? (op.operandType x y) = some t := by
  cases op with
  | equal | notEqual =>
      simp only [resultType?, Option.ite_none_right_eq_some, Option.some.injEq] at h
      rcases h with ⟨htypes, rfl⟩
      exact converts_of_equality _ rfl x y htypes
  | greater | less | greaterEqual | lessEqual | add | subtract | multiply | divide =>
      simp only [resultType?, Option.ite_none_right_eq_some, Option.some.injEq] at h
      rcases h with ⟨⟨hx, hy⟩, rfl⟩
      refine ⟨converts_of_numeric _ rfl x y hx hy, ?_⟩
      rw [operandType_numeric _ rfl x y hx hy]
      -- Both types of numbers have all of these operators.
      split
      · rfl
      · rfl
  | and | or =>
      simp only [resultType?, Option.ite_none_right_eq_some, Option.some.injEq] at h
      rcases h with ⟨⟨hx, hy⟩, rfl⟩
      exact ⟨⟨Or.inl hx, Or.inl hy⟩, rfl⟩

theorem onInts_lenient (op : Operator) (a b : Int64) (t : ScalarType)
    (h : op.supportedType? .int64 = some t) :
    ∃ v : Value, v.type = t ∧ op.onInts .zero a b = .ok v := by
  cases op with
  | divide =>
      by_cases hzero : b = 0
      · exact ⟨.int 0, Option.some.inj h, if_pos hzero⟩
      · exact ⟨.int (a / b), Option.some.inj h, if_neg hzero⟩
  | and | or => cases h
  | _ =>
      refine ⟨_, ?_, rfl⟩
      exact Option.some.inj h

theorem onFloats_lenient (op : Operator) (a b : Float) (t : ScalarType)
    (h : op.supportedType? .float = some t) :
    ∃ v : Value, v.type = t ∧ op.onFloats .zero a b = .ok v := by
  cases op with
  | divide =>
      by_cases hzero : (b == 0) = true
      · exact ⟨.float 0, Option.some.inj h, if_pos hzero⟩
      · exact ⟨.float (a / b), Option.some.inj h, if_neg hzero⟩
  | and | or => cases h
  | _ =>
      refine ⟨_, ?_, rfl⟩
      exact Option.some.inj h

/-- An operator on two values of a type at which it is supported gives a value,
    with zero in place of a quotient that there is not. -/
theorem combine?_lenient (op : Operator) (kind t : ScalarType) (a b : Value)
    (h : op.supportedType? kind = some t) (ha : a.type = kind) (hb : b.type = kind) :
    ∃ v : Value, v.type = t ∧ op.combine? .zero kind a b = some (.ok v) := by
  cases kind with
  | int64 =>
      cases a <;> cases ha
      cases b <;> cases hb
      rcases onInts_lenient op _ _ t h with ⟨v, hv, hr⟩
      exact ⟨v, hv, congrArg some hr⟩
  | float =>
      cases a <;> cases ha
      cases b <;> cases hb
      rcases onFloats_lenient op _ _ t h with ⟨v, hv, hr⟩
      exact ⟨v, hv, congrArg some hr⟩
  | string =>
      cases a <;> cases ha
      cases b <;> cases hb
      cases op with
      | equal | notEqual =>
          refine ⟨_, ?_, rfl⟩
          exact Option.some.inj h
      | _ => cases h
  | bool =>
      cases a <;> cases ha
      cases b <;> cases hb
      cases op with
      | equal | notEqual | and | or =>
          refine ⟨_, ?_, rfl⟩
          exact Option.some.inj h
      | _ => cases h

end Operator

section Evaluation

variable {m : Type → Type} [Monad m] [LawfulMonad m]

/-- The meaning of operators for JSON data, with zero for a quotient that there
    is not. -/
abbrev Semantics.lenient (m : Type → Type) [Monad m] : Semantics m :=
  .ofFunction Json.cast .zero

open Semantics (lenient)

/-- A typed operator gives a value of its type. -/
theorem Semantics.apply_gives (op : Operator) (x y : Value) (t : ScalarType)
    (h : op.resultType? x.type y.type = some t) :
    Gives t ((lenient m).apply (op.operandType x y) op (.value x) (.value y)) := by
  rcases op.converts_operandType x y t h with ⟨⟨hx, hy⟩, hsupported⟩
  rcases Caster.castValue_json (m := m) x _ hx with ⟨a, ha, hcastx⟩
  rcases Caster.castValue_json (m := m) y _ hy with ⟨b, hb, hcasty⟩
  rcases op.combine?_lenient _ t a b hsupported ha hb with ⟨v, hv, hcombine⟩
  refine ⟨v, hv, ?_⟩
  -- Both casts are values, so what is left is the operator on them.
  have hleft : (Operand.value x).cast (lenient m).caster (op.operandType x y) = pure a := hcastx
  have hright : (Operand.value y).cast (lenient m).caster (op.operandType x y) = pure b := hcasty
  have hpolicy : (lenient m).division = .zero := rfl
  rw [apply, hleft, pure_bind, hright, pure_bind, combine_eq, hpolicy, hcombine, Option.getD_some,
    Outcome.ofExcept_ok]

section Arguments

variable {c : Context} {a : Argument m}

/-- A truth value is taken as it is. -/
theorem Argument.evalBool_gives (h : Gives .bool (a.eval c)) :
    ∃ b, a.evalBool (lenient m) c = pure b := by
  rcases h with ⟨v, hv, heval⟩
  cases v <;> cases hv
  case bool b =>
    have hcoerce : (lenient m).coerce (.bool b) .bool = pure (.bool b) :=
      Semantics.coerce_of_castValue _ (Caster.castValue_self _ _) rfl
    refine ⟨b, ?_⟩
    rw [evalBool, evalAs, heval, pure_bind, hcoerce, pure_bind]

/-- Every value has a text. -/
theorem Argument.evalString_gives {t : ScalarType} (h : Gives t (a.eval c)) :
    ∃ s, a.evalString (lenient m) c = pure s := by
  rcases h with ⟨v, -, heval⟩
  rcases Caster.castValue_json (m := m) v .string (Or.inr (Or.inl rfl)) with ⟨w, hw, hcast⟩
  have hcoerce : (lenient m).coerce v .string = pure w := Semantics.coerce_of_castValue _ hcast hw
  cases w <;> cases hw
  case string s =>
    refine ⟨s, ?_⟩
    rw [evalString, evalAs, heval, pure_bind, hcoerce, pure_bind]

end Arguments

namespace Builtin

variable {c : Context} {as : List (Argument m)} {ts : List ScalarType}

theorem scan_gives (stop : Bool) (h : ∀ a ∈ as, Gives .bool (a.eval c)) :
    Gives .bool (scan stop (lenient m) c as) := by
  induction as with
  | nil => exact ⟨.bool !stop, rfl, rfl⟩
  | cons a rest ih =>
      rcases Argument.evalBool_gives (h a List.mem_cons_self) with ⟨b, hb⟩
      rw [scan, hb, pure_bind]
      -- The other arguments are evaluated only if this one does not decide.
      split
      · exact ⟨.bool stop, rfl, rfl⟩
      · exact ih fun a' ha' => h a' (List.mem_cons_of_mem a ha')

theorem negation_gives {a : Argument m} (h : Gives .bool (a.eval c)) :
    Gives .bool (negation (lenient m) [a] c) := by
  rcases Argument.evalBool_gives h with ⟨b, hb⟩
  rw [negation, hb, pure_bind]
  exact ⟨.bool !b, rfl, rfl⟩

theorem conditional_gives {condition yes no : Argument m} {t : ScalarType}
    (hcondition : Gives .bool (condition.eval c)) (hyes : Gives t (yes.eval c))
    (hno : Gives t (no.eval c)) : Gives t (conditional (lenient m) [condition, yes, no] c) := by
  rcases Argument.evalBool_gives hcondition with ⟨b, hb⟩
  rw [conditional, hb, pure_bind]
  cases b with
  | true => exact hyes
  | false => exact hno

theorem length_gives {a : Argument m} {t : ScalarType} (h : Gives t (a.eval c)) :
    Gives .int64 (length (lenient m) [a] c) := by
  rcases Argument.evalString_gives h with ⟨s, hs⟩
  rw [length, hs, pure_bind]
  exact ⟨.int _, rfl, rfl⟩

theorem contains_gives {whole part : Argument m} {t t' : ScalarType}
    (hwhole : Gives t (whole.eval c)) (hpart : Gives t' (part.eval c)) :
    Gives .bool (contains (lenient m) [whole, part] c) := by
  rcases Argument.evalString_gives hwhole with ⟨s, hs⟩
  rcases Argument.evalString_gives hpart with ⟨s', hs'⟩
  rw [contains, hs, pure_bind, hs', pure_bind]
  exact ⟨.bool _, rfl, rfl⟩

/-- A typed call of a built-in function gives a value of its type. -/
theorem call_gives (function : String) (t : ScalarType) (h : resultType? function ts = some t)
    (hargs : List.Forall₂ (fun a t => Gives t (a.eval c)) as ts) :
    Gives t (Registry.builtins.call function (lenient m) as c) := by
  unfold resultType? at h
  split at h
  case h_1 t₁ ts =>
    rw [Option.ite_none_right_eq_some, Option.some.injEq] at h
    rcases h with ⟨hbool, rfl⟩
    rw [Registry.call_builtins (by simp [Builtin.all] : ("and", conjunction) ∈ Builtin.all)]
    have hgives := gives_of_forall hargs hbool
    cases hargs with
    | cons _ _ =>
        rw [conjunction_cons]
        exact scan_gives false hgives
  case h_2 t₁ ts =>
    rw [Option.ite_none_right_eq_some, Option.some.injEq] at h
    rcases h with ⟨hbool, rfl⟩
    rw [Registry.call_builtins (by simp [Builtin.all] : ("or", disjunction) ∈ Builtin.all)]
    have hgives := gives_of_forall hargs hbool
    cases hargs with
    | cons _ _ =>
        rw [disjunction_cons]
        exact scan_gives true hgives
  case h_3 t₁ =>
    rw [Option.ite_none_right_eq_some, Option.some.injEq] at h
    rcases h with ⟨rfl, rfl⟩
    rw [Registry.call_builtins (by simp [Builtin.all] : ("not", negation) ∈ Builtin.all)]
    rcases hargs with _ | ⟨ha, _ | _⟩
    exact negation_gives ha
  case h_4 condition yes no =>
    rw [Option.ite_none_right_eq_some, Option.some.injEq] at h
    rcases h with ⟨⟨rfl, rfl⟩, rfl⟩
    rw [Registry.call_builtins (by simp [Builtin.all] : ("if", conditional) ∈ Builtin.all)]
    rcases hargs with _ | ⟨hcondition, _ | ⟨hyes, _ | ⟨hno, _ | _⟩⟩⟩
    exact conditional_gives hcondition hyes hno
  case h_5 t₁ =>
    cases h
    rw [Registry.call_builtins (by simp [Builtin.all] : ("len", length) ∈ Builtin.all)]
    rcases hargs with _ | ⟨ha, _ | _⟩
    exact length_gives ha
  case h_6 t₁ t₂ =>
    cases h
    rw [Registry.call_builtins (by simp [Builtin.all] : ("contains", contains) ∈ Builtin.all)]
    rcases hargs with _ | ⟨hwhole, _ | ⟨hpart, _ | _⟩⟩
    exact contains_gives hwhole hpart
  case h_7 => cases h

end Builtin

namespace Evaluator

omit [LawfulMonad m] in
/-- A variable with a type has a value of that type. -/
theorem variable_gives (name : String) (c : Context) (t : ScalarType)
    (h : (Expr.variable name).type? c = some t) :
    Gives t ((withBuiltins (lenient m)).eval (.variable name) c) := by
  simp only [Expr.type?, Option.bind_eq_bind, Option.bind_eq_some_iff, Option.map_eq_some_iff] at h
  rcases h with ⟨j, hj, v, hv, hvt⟩
  have hvalue : Value.ofJson j = .ok v := by
    cases hof : Value.ofJson j with
    | ok w =>
        rw [hof, Except.toOption, Option.some.injEq] at hv
        rw [hv]
    | error err =>
        rw [hof] at hv
        cases hv
  refine ⟨v, hvt, ?_⟩
  rw [eval_variable, Context.lookup, hj]
  exact congrArg Outcome.ofExcept hvalue

/-- A typed rule gives a value of its type, in every monad. -/
theorem eval_gives (e : Expr) (c : Context) (t : ScalarType) (h : e.type? c = some t) :
    Gives t ((withBuiltins (lenient m)).eval e c) := by
  induction e using Expr.induct generalizing t with
  | literal v =>
      rw [Expr.type?, Option.some.injEq] at h
      rw [eval_literal]
      exact ⟨v, h, rfl⟩
  | reference name => exact variable_gives name c t h
  | binary op left right hleft hright =>
      simp only [Expr.type?, Option.bind_eq_bind, Option.bind_eq_some_iff] at h
      rcases h with ⟨a, ha, b, hb, hop⟩
      -- The operator is typed by the types of the operands, hence by their values.
      rcases hleft a ha with ⟨x, rfl, hx⟩
      rcases hright b hb with ⟨y, rfl, hy⟩
      rw [eval_binary, hx, pure_bind, hy, pure_bind]
      exact Semantics.apply_gives op x y t hop
  | call function args hargs =>
      simp only [Expr.type?, Option.bind_eq_bind, Option.bind_eq_some_iff] at h
      rcases h with ⟨ts, hts, hcall⟩
      rw [eval_call]
      refine Builtin.call_gives function t hcall (List.forall₂_map_left_iff.2 ?_)
      -- Each argument has the type that the call was typed with.
      have htyped := (List.forall₂_and_left _ _).2 ⟨hargs, Expr.types?_forall₂ hts⟩
      exact htyped.imp fun _ t he => he.1 t he.2

end Evaluator

end Evaluation

/-- A rule with a type never fails for the caster for JSON data, except that it
    may come to a division by zero under the strict policy. Under the lenient
    policy it has a value, which is of that type, and under the strict one it has
    the same value unless that happens. -/
theorem Evaluator.typed_rules_never_fail (c : Context) (e : Expr) (t : ScalarType)
    (h : e.type? c = some t) :
    ∃ v : Value, v.type = t ∧
      ((withBuiltins ⟨Caster.json, .zero⟩).eval e c : Outcome Id Value) = pure v ∧
      (((withBuiltins ⟨Caster.json, .error⟩).eval e c : Outcome Id Value) = pure v ∨
        ((withBuiltins ⟨Caster.json, .error⟩).eval e c : Outcome Id Value) =
          throw .divisionByZero) := by
  rcases eval_gives (m := Id) e c t h with ⟨v, hv, hlenient⟩
  refine ⟨v, hv, hlenient, ?_⟩
  rcases eval_stopping Json.cast e c with hsame | hstop
  · exact Or.inl (hsame.trans hlenient)
  · exact Or.inr hstop

/-- `if(1 > 2.5, 7 / 0, len("abc"))` is a rule for an integer, although it has a
    quotient in it that there is not. -/
theorem Evaluator.typed_rules_never_fail_conditional :
    let e : Expr := .call "if" [.binary .greater (.literal (.int 1)) (.literal (.float 2.5)),
      .binary .divide (.literal (.int 7)) (.literal (.int 0)),
      .call "len" [.literal (.string "abc")]]
    e.type? .empty = some .int64 ∧ ∃ v : Value, v.type = .int64 ∧
      ((withBuiltins ⟨Caster.json, .zero⟩).eval e .empty : Outcome Id Value) = pure v ∧
      (((withBuiltins ⟨Caster.json, .error⟩).eval e .empty : Outcome Id Value) = pure v ∨
        ((withBuiltins ⟨Caster.json, .error⟩).eval e .empty : Outcome Id Value) =
          throw .divisionByZero) := by
  intro e
  have htype : e.type? .empty = some .int64 := rfl
  exact ⟨htype, typed_rules_never_fail .empty e .int64 htype⟩

end Criteria
