import Criteria.Proofs.Typing

/-!
# Endings

How a computation can end.

A law about the results of evaluation has to follow them backwards: from the
result of a whole to the result of the part that it came from. `Outcome.MayEnd`
says that a computation can end with a value or an error, and for what evaluation
is put together from there is a statement of what each ending comes from. A
computation in two steps has failed in its first step or has gone on from a value
of it; a cast whose result is checked has the type that was asked for; an operator
gives a value of the type that it has at its operands, or fails for one of three
reasons; a call of a function has ended in one of the few ways listed in
`Builtin.Ending`.

Nothing is assumed of the caster. It may be computed in any monad that keeps track
of what a computation can return, so it may have a state that changes with every
call, and it may give anything for anything.

## Main definitions

* `Outcome.MayEnd`: A computation can end with a result.
* `Builtin.names`, `Builtin.arityFault?`: The names of the built-in functions, and
  what is wrong with a number of arguments.
* `Builtin.argumentType?`, `Builtin.castArguments`: The type at which a function
  takes arguments, and which ones.
* `Builtin.Ending`: The ways in which a call can end.

## Theorems

* `Outcome.mayEnd_iff_run_eq`, `Outcome.mayEnd_iff_exists_state`: What that means
  without effects and with a state.
* `Outcome.mayEnd_bind`: The endings of a computation in two steps.
* `Operator.combine?_cases`: What an operator gives.
* `Semantics.apply_cases`: What comes of an operator on operands.
* `Semantics.type_of_coerce`, `Semantics.coerce_failure`: What a checked cast gives
  and how it fails.
* `Argument.evalAs_failure`: How the value of an argument at a type fails.
* `Builtin.call_ending`: A call ends in one of the listed ways.
-/

namespace Criteria

namespace Outcome

/-- Whether a computation can end with a result, be it a value or an error. -/
def MayEnd {m : Type → Type} [MonadAttach m] {α : Type} (x : Outcome m α)
    (r : Except EvalError α) : Prop :=
  MonadAttach.CanReturn x.run r

/-- Without effects a computation ends with what it is. -/
theorem mayEnd_iff_run_eq {α : Type} (x : Outcome Id α) (r : Except EvalError α) :
    x.MayEnd r ↔ x.run = r :=
  Iff.rfl

/-- With a state it ends with what it gives from some state. -/
theorem mayEnd_iff_exists_state {σ α : Type} (x : Outcome (StateM σ) α) (r : Except EvalError α) :
    x.MayEnd r ↔ ∃ init, (x.run.run init).1 = r := by
  constructor
  · rintro ⟨init, final, h⟩
    exact ⟨init, congrArg Prod.fst h⟩
  · rintro ⟨init, h⟩
    exact ⟨init, (x.run.run init).2, Prod.ext h rfl⟩

variable {m : Type → Type} [Monad m] [LawfulMonad m] [MonadAttach m] [LawfulMonadAttach m]
  {α β : Type}

theorem eq_of_mayEnd_ofExcept {r r' : Except EvalError α}
    (h : (ofExcept r : Outcome m α).MayEnd r') : r' = r :=
  (LawfulMonadAttach.eq_of_canReturn_pure h).symm

theorem eq_of_mayEnd_pure {a : α} {r : Except EvalError α} (h : (pure a : Outcome m α).MayEnd r) :
    r = .ok a :=
  eq_of_mayEnd_ofExcept h

theorem eq_of_mayEnd_throw {err : EvalError} {r : Except EvalError α}
    (h : (throw err : Outcome m α).MayEnd r) : r = .error err :=
  eq_of_mayEnd_ofExcept h

/-- Effects alone do not fail. -/
theorem ok_of_mayEnd_lift {x : m α} {r : Except EvalError α}
    (h : MayEnd (ExceptT.lift x) r) : ∃ a, r = .ok a := by
  rcases LawfulMonadAttach.canReturn_map_imp' h with ⟨a, _, rfl⟩
  exact ⟨a, rfl⟩

/-- A computation in two steps has failed in the first one, or it has gone on from
    a value of it. -/
theorem mayEnd_bind {x : Outcome m α} {f : α → Outcome m β} {r : Except EvalError β}
    (h : MayEnd (x >>= f) r) :
    (∃ err, x.MayEnd (.error err) ∧ r = .error err) ∨ ∃ a, x.MayEnd (.ok a) ∧ (f a).MayEnd r := by
  rcases LawfulMonadAttach.canReturn_bind_imp' h with ⟨first, hfirst, hrest⟩
  cases first with
  | ok a => exact Or.inr ⟨a, hfirst, hrest⟩
  | error err => exact Or.inl ⟨err, hfirst, (LawfulMonadAttach.eq_of_canReturn_pure hrest).symm⟩

end Outcome

namespace Operator

theorem onInts_cases (policy : DivisionPolicy) (a b : Int64) (op : Operator) :
    (∃ v, op.onInts policy a b = .ok v ∧ op.supportedType? .int64 = some v.type) ∨
      op.onInts policy a b = .error (.unsupportedOperator op) ∧
        op.supportedType? .int64 = none ∨
      op.onInts policy a b = .error .divisionByZero ∧ op = .divide ∧ policy = .error := by
  cases op with
  | divide =>
      by_cases hzero : b = 0
      · have hquotient : divide.onInts policy a b = policy.quotient (.int 0) := if_pos hzero
        rw [hquotient]
        cases policy with
        | zero => exact Or.inl ⟨_, rfl, rfl⟩
        | error => exact Or.inr (Or.inr ⟨rfl, rfl, rfl⟩)
      · exact Or.inl ⟨_, if_neg hzero, rfl⟩
  | and | or => exact Or.inr (Or.inl ⟨rfl, rfl⟩)
  | _ => exact Or.inl ⟨_, rfl, rfl⟩

theorem onFloats_cases (policy : DivisionPolicy) (a b : Float) (op : Operator) :
    (∃ v, op.onFloats policy a b = .ok v ∧ op.supportedType? .float = some v.type) ∨
      op.onFloats policy a b = .error (.unsupportedOperator op) ∧
        op.supportedType? .float = none ∨
      op.onFloats policy a b = .error .divisionByZero ∧ op = .divide ∧ policy = .error := by
  cases op with
  | divide =>
      by_cases hzero : (b == 0) = true
      · have hquotient : divide.onFloats policy a b = policy.quotient (.float 0) := if_pos hzero
        rw [hquotient]
        cases policy with
        | zero => exact Or.inl ⟨_, rfl, rfl⟩
        | error => exact Or.inr (Or.inr ⟨rfl, rfl, rfl⟩)
      · exact Or.inl ⟨_, if_neg hzero, rfl⟩
  | and | or => exact Or.inr (Or.inl ⟨rfl, rfl⟩)
  | _ => exact Or.inl ⟨_, rfl, rfl⟩

/-- An operator on values of the type at which it works gives a value of the type
    it has there, or it is not supported there, or it is a division by zero that
    the policy does not allow. -/
theorem combine?_cases (policy : DivisionPolicy) (op : Operator) (kind : ScalarType) (a b : Value)
    (r : Except EvalError Value) (h : op.combine? policy kind a b = some r) :
    (∃ v, r = .ok v ∧ op.supportedType? kind = some v.type) ∨
      r = .error (.unsupportedOperator op) ∧ op.supportedType? kind = none ∨
      r = .error .divisionByZero ∧ op = .divide ∧ policy = .error := by
  unfold combine? at h
  split at h
  · cases h
    exact onInts_cases policy _ _ op
  · cases h
    exact onFloats_cases policy _ _ op
  · cases h
    cases op <;> first | exact Or.inl ⟨_, rfl, rfl⟩ | exact Or.inr (Or.inl ⟨rfl, rfl⟩)
  · cases h
    cases op <;> first | exact Or.inl ⟨_, rfl, rfl⟩ | exact Or.inr (Or.inl ⟨rfl, rfl⟩)
  · cases h

/-- An operator has nothing to work on only if a value is of another type. -/
theorem combine?_eq_none {policy : DivisionPolicy} {op : Operator} {kind : ScalarType}
    {a b : Value} (h : op.combine? policy kind a b = none) : ¬(a.type = kind ∧ b.type = kind) := by
  rintro ⟨ha, hb⟩
  cases kind <;> cases a <;> cases ha <;> cases b <;> cases hb <;> cases h

end Operator

section Operations

variable {m : Type → Type} [Monad m] [LawfulMonad m] [MonadAttach m] [LawfulMonadAttach m]

namespace Semantics

variable (s : Semantics m)

/-- What comes of an operator on operands: the error of a cast, or else what the
    operator gives for the values of the two casts. -/
theorem apply_cases {kind : ScalarType} {op : Operator} {x y : Operand}
    {r : Except EvalError Value} (h : (s.apply kind op x y).MayEnd r) :
    (∃ err, ((x.cast s.caster kind).MayEnd (.error err) ∨
        (y.cast s.caster kind).MayEnd (.error err)) ∧ r = .error err) ∨
      ∃ a b, (x.cast s.caster kind).MayEnd (.ok a) ∧ (y.cast s.caster kind).MayEnd (.ok b) ∧
        r = (op.combine? s.division kind a b).getD
          (.error (.typeAssertion x.text op y.text)) := by
  unfold apply at h
  rcases Outcome.mayEnd_bind h with ⟨err, hx, rfl⟩ | ⟨a, hx, h⟩
  · exact Or.inl ⟨err, Or.inl hx, rfl⟩
  rcases Outcome.mayEnd_bind h with ⟨err, hy, rfl⟩ | ⟨b, hy, h⟩
  · exact Or.inl ⟨err, Or.inr hy, rfl⟩
  · rw [combine_eq] at h
    exact Or.inr ⟨a, b, hx, hy, Outcome.eq_of_mayEnd_ofExcept h⟩

/-- A checked cast gives a value of the type that was asked for. -/
theorem type_of_coerce {v w : Value} {target : ScalarType}
    (h : (s.coerce v target).MayEnd (.ok w)) : w.type = target := by
  unfold coerce at h
  split at h
  case isTrue htype =>
    cases Outcome.eq_of_mayEnd_pure h
    exact htype
  case isFalse =>
    rcases Outcome.mayEnd_bind h with ⟨err, _, heq⟩ | ⟨w', _, hcheck⟩
    · cases heq
    · split at hcheck
      · next htype =>
          cases Outcome.eq_of_mayEnd_pure hcheck
          exact htype
      · cases Outcome.eq_of_mayEnd_throw hcheck

/-- A checked cast fails only for a value of another type: the caster has failed, or
    has given something of a type that was not asked for. -/
theorem coerce_failure {v : Value} {target : ScalarType} {err : EvalError}
    (h : (s.coerce v target).MayEnd (.error err)) :
    v.type ≠ target ∧ ((s.caster.castValue v target).MayEnd (.error err) ∨
      ∃ w, (s.caster.castValue v target).MayEnd (.ok w) ∧ w.type ≠ target ∧
        err = .coercion v.text target (Refusal.wrongType w.type).text) := by
  unfold coerce at h
  split at h
  case isTrue => cases Outcome.eq_of_mayEnd_pure h
  case isFalse htype =>
    refine ⟨htype, ?_⟩
    rcases Outcome.mayEnd_bind h with ⟨err', hcast, heq⟩ | ⟨w, hcast, hcheck⟩
    · cases heq
      exact Or.inl hcast
    · split at hcheck
      · cases Outcome.eq_of_mayEnd_pure hcheck
      · next hne =>
          cases Outcome.eq_of_mayEnd_throw hcheck
          exact Or.inr ⟨w, hcast, hne, rfl⟩

end Semantics

namespace Argument

variable {s : Semantics m} {c : Context} {a : Argument m}

theorem type_of_evalAs {target : ScalarType} {w : Value}
    (h : (a.evalAs s c target).MayEnd (.ok w)) : w.type = target := by
  rcases Outcome.mayEnd_bind h with ⟨err, _, heq⟩ | ⟨v, _, hcoerce⟩
  · cases heq
  · exact s.type_of_coerce hcoerce

/-- The value of an argument at a type fails as the argument does, or its value has
    failed to be cast. -/
theorem evalAs_failure {target : ScalarType} {err : EvalError}
    (h : (a.evalAs s c target).MayEnd (.error err)) :
    (a.eval c).MayEnd (.error err) ∨
      ∃ v, (a.eval c).MayEnd (.ok v) ∧ (s.coerce v target).MayEnd (.error err) := by
  rcases Outcome.mayEnd_bind h with ⟨err', hfail, heq⟩ | ⟨v, hv, hcoerce⟩
  · cases heq
    exact Or.inl hfail
  · exact Or.inr ⟨v, hv, hcoerce⟩

/-- What is done with a value of the type that was asked for may rely on its type. If
    that is enough not to fail, then only the value itself can have failed. -/
theorem evalAs_bind_failure {α : Type} {target : ScalarType} {f : Value → Outcome m α}
    (hf : ∀ w : Value, w.type = target → ∃ b, f w = pure b) {err : EvalError}
    (h : Outcome.MayEnd (a.evalAs s c target >>= f) (.error err)) :
    (a.evalAs s c target).MayEnd (.error err) := by
  rcases Outcome.mayEnd_bind h with ⟨err', hfail, heq⟩ | ⟨w, hw, hrest⟩
  · cases heq
    exact hfail
  · rcases hf w (type_of_evalAs hw) with ⟨b, hb⟩
    rw [hb] at hrest
    cases Outcome.eq_of_mayEnd_pure hrest

theorem evalBool_failure {err : EvalError} (h : (a.evalBool s c).MayEnd (.error err)) :
    (a.evalAs s c .bool).MayEnd (.error err) := by
  refine evalAs_bind_failure (fun w hw => ?_) h
  cases w <;> cases hw
  exact ⟨_, rfl⟩

theorem evalString_failure {err : EvalError} (h : (a.evalString s c).MayEnd (.error err)) :
    (a.evalAs s c .string).MayEnd (.error err) := by
  refine evalAs_bind_failure (fun w hw => ?_) h
  cases w <;> cases hw
  exact ⟨_, rfl⟩

end Argument

end Operations

namespace Builtin

/-- The names of the built-in functions. -/
def names : List String :=
  ["and", "or", "not", "if", "len", "contains"]

/-- What is wrong with so many arguments for a built-in function, if anything is. -/
def arityFault? (function : String) (given : Nat) : Option ArityFault :=
  match function with
  | "and" | "or" => if given = 0 then some .noArguments else none
  | "not" | "len" => if given = 1 then none else some (.expected 1 given)
  | "contains" => if given = 2 then none else some (.expected 2 given)
  | "if" => if given = 3 then none else some (.expected 3 given)
  | _ => none

/-- The type at which a built-in function takes arguments. -/
def argumentType? : String → Option ScalarType
  | "and" | "or" | "not" | "if" => some .bool
  | "len" | "contains" => some .string
  | _ => none

/-- The arguments that a built-in function takes at that type. The branches of a
    conditional may have any. -/
def castArguments {α : Type} : String → List α → List α
  | "if", arguments => arguments.take 1
  | _, arguments => arguments

variable {m : Type → Type} [Monad m]

theorem names_eq : (all : List (String × Handler m)).map Prod.fst = names := rfl

theorem castArguments_map {α β : Type} (f : α → β) (function : String) (arguments : List α) :
    castArguments function (arguments.map f) = (castArguments function arguments).map f := by
  unfold castArguments
  split
  · rw [List.map_take]
  · rfl

theorem mem_of_mem_castArguments {α : Type} {a : α} {function : String} {arguments : List α}
    (h : a ∈ castArguments function arguments) : a ∈ arguments := by
  unfold castArguments at h
  split at h
  · exact List.mem_of_mem_take h
  · exact h

variable [MonadAttach m]

/-- The ways in which a call with arguments can end, by the name that is called. -/
inductive Ending (s : Semantics m) (c : Context) (as : List (Argument m)) :
    String → Except EvalError Value → Prop where
  | unknown {function : String} (h : function ∉ names) :
      Ending s c as function (.error (.unknownFunction function))
  | arity {function : String} {fault : ArityFault}
      (h : arityFault? function as.length = some fault) :
      Ending s c as function (.error (arityError function fault))
  | argument {function : String} {target : ScalarType} {a : Argument m} {err : EvalError}
      (htarget : argumentType? function = some target) (ha : a ∈ castArguments function as)
      (h : (a.evalAs s c target).MayEnd (.error err)) : Ending s c as function (.error err)
  | truth {function : String} (h : function ∈ ["and", "or", "not", "contains"]) (b : Bool) :
      Ending s c as function (.ok (.bool b))
  | number (n : Int64) : Ending s c as "len" (.ok (.int n))
  | branch {condition yes no a : Argument m} {r : Except EvalError Value}
      (has : as = [condition, yes, no]) (ha : a = yes ∨ a = no) (h : (a.eval c).MayEnd r) :
      Ending s c as "if" r

variable [LawfulMonad m] [LawfulMonadAttach m] {s : Semantics m} {c : Context}
  {as : List (Argument m)} {r : Except EvalError Value}

/-- A scan of arguments gives a truth value, or an argument has failed to be one. -/
theorem scan_ending {stop : Bool} (h : (scan stop s c as).MayEnd r) :
    (∃ b, r = .ok (.bool b)) ∨
      ∃ a ∈ as, ∃ err, (a.evalAs s c .bool).MayEnd (.error err) ∧ r = .error err := by
  induction as with
  | nil => exact Or.inl ⟨!stop, Outcome.eq_of_mayEnd_pure h⟩
  | cons a rest ih =>
      rcases Outcome.mayEnd_bind h with ⟨err, hfail, rfl⟩ | ⟨b, _, hrest⟩
      · exact Or.inr ⟨a, List.mem_cons_self, err, Argument.evalBool_failure hfail, rfl⟩
      -- The scan stops here, or it ends as it does on the rest.
      split at hrest
      · exact Or.inl ⟨stop, Outcome.eq_of_mayEnd_pure hrest⟩
      · refine (ih hrest).imp_right ?_
        rintro ⟨a', ha', hfail⟩
        exact ⟨a', List.mem_cons_of_mem a ha', hfail⟩

theorem conjunction_ending (h : (conjunction s as c).MayEnd r) : Ending s c as "and" r := by
  cases as with
  | nil =>
      cases Outcome.eq_of_mayEnd_throw h
      exact .arity rfl
  | cons a rest =>
      rw [conjunction_cons] at h
      rcases scan_ending h with ⟨b, rfl⟩ | ⟨a', ha', err, hfail, rfl⟩
      · exact .truth (by decide) b
      · exact .argument rfl ha' hfail

theorem disjunction_ending (h : (disjunction s as c).MayEnd r) : Ending s c as "or" r := by
  cases as with
  | nil =>
      cases Outcome.eq_of_mayEnd_throw h
      exact .arity rfl
  | cons a rest =>
      rw [disjunction_cons] at h
      rcases scan_ending h with ⟨b, rfl⟩ | ⟨a', ha', err, hfail, rfl⟩
      · exact .truth (by decide) b
      · exact .argument rfl ha' hfail

theorem negation_ending (h : (negation s as c).MayEnd r) : Ending s c as "not" r := by
  by_cases hlength : as.length = 1
  · rcases List.length_eq_one_iff.1 hlength with ⟨a, rfl⟩
    rcases Outcome.mayEnd_bind h with ⟨err, hfail, rfl⟩ | ⟨b, _, hrest⟩
    · exact .argument rfl List.mem_cons_self (Argument.evalBool_failure hfail)
    · cases Outcome.eq_of_mayEnd_pure hrest
      exact .truth (by decide) _
  · rw [negation_arity s as c hlength] at h
    cases Outcome.eq_of_mayEnd_throw h
    exact .arity (if_neg hlength)

theorem conditional_ending (h : (conditional s as c).MayEnd r) : Ending s c as "if" r := by
  by_cases hlength : as.length = 3
  · rcases List.length_eq_three.1 hlength with ⟨condition, yes, no, rfl⟩
    rcases Outcome.mayEnd_bind h with ⟨err, hfail, rfl⟩ | ⟨b, _, hrest⟩
    · exact .argument rfl List.mem_cons_self (Argument.evalBool_failure hfail)
    · cases b with
      | true => exact .branch rfl (Or.inl rfl) hrest
      | false => exact .branch rfl (Or.inr rfl) hrest
  · rw [conditional_arity s as c hlength] at h
    cases Outcome.eq_of_mayEnd_throw h
    exact .arity (if_neg hlength)

theorem length_ending (h : (length s as c).MayEnd r) : Ending s c as "len" r := by
  by_cases hlength : as.length = 1
  · rcases List.length_eq_one_iff.1 hlength with ⟨a, rfl⟩
    rcases Outcome.mayEnd_bind h with ⟨err, hfail, rfl⟩ | ⟨t, _, hrest⟩
    · exact .argument rfl List.mem_cons_self (Argument.evalString_failure hfail)
    · cases Outcome.eq_of_mayEnd_pure hrest
      exact .number _
  · rw [length_arity s as c hlength] at h
    cases Outcome.eq_of_mayEnd_throw h
    exact .arity (if_neg hlength)

theorem contains_ending (h : (contains s as c).MayEnd r) : Ending s c as "contains" r := by
  by_cases hlength : as.length = 2
  · rcases List.length_eq_two.1 hlength with ⟨whole, part, rfl⟩
    rcases Outcome.mayEnd_bind h with ⟨err, hfail, rfl⟩ | ⟨t, _, hrest⟩
    · exact .argument rfl List.mem_cons_self (Argument.evalString_failure hfail)
    rcases Outcome.mayEnd_bind hrest with ⟨err, hfail, rfl⟩ | ⟨t', _, hfound⟩
    · exact .argument rfl (List.mem_cons_of_mem _ List.mem_cons_self)
        (Argument.evalString_failure hfail)
    · cases Outcome.eq_of_mayEnd_pure hfound
      exact .truth (by decide) _
  · rw [contains_arity s as c hlength] at h
    cases Outcome.eq_of_mayEnd_throw h
    exact .arity (if_neg hlength)

/-- Every function ends as its name says. -/
theorem all_ending {function : String} {handler : Handler m} (hmem : (function, handler) ∈ all)
    (h : (handler s as c).MayEnd r) : Ending s c as function r := by
  simp only [all, List.mem_cons, Prod.mk.injEq, List.not_mem_nil, or_false] at hmem
  rcases hmem with ⟨rfl, rfl⟩ | ⟨rfl, rfl⟩ | ⟨rfl, rfl⟩ | ⟨rfl, rfl⟩ | ⟨rfl, rfl⟩ | ⟨rfl, rfl⟩
  · exact conjunction_ending h
  · exact disjunction_ending h
  · exact negation_ending h
  · exact conditional_ending h
  · exact length_ending h
  · exact contains_ending h

/-- A call by any name ends in one of the listed ways. -/
theorem call_ending {function : String} (h : (Registry.builtins.call function s as c).MayEnd r) :
    Ending s c as function r := by
  by_cases hname : function ∈ names
  · rw [← names_eq (m := m), List.mem_map] at hname
    rcases hname with ⟨⟨name, handler⟩, hmem, rfl⟩
    rw [Registry.call_builtins hmem] at h
    exact all_ending hmem h
  · have hnone : (Registry.builtins : Registry m).get? function = none := by
      rw [Registry.get?_builtins, List.lookup_eq_none_iff]
      rintro ⟨name, handler⟩ hmem
      rw [List.mem_reverse] at hmem
      rw [bne_iff_ne]
      rintro rfl
      exact hname (names_eq (m := m) ▸ List.mem_map_of_mem hmem)
    rw [Registry.call, hnone] at h
    cases Outcome.eq_of_mayEnd_throw h
    exact .unknown hname

end Builtin

end Criteria
