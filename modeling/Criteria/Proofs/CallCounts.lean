import Criteria.Expr.Parts
import Criteria.Proofs.Calls

/-!
# Counting Calls

How often a caster is called.

A caster may be slow, and a rule may be deep, so it matters that evaluation does not ask
the same thing twice. The record of calls makes this a statement about lists: a
computation puts some calls behind what is on the record already, and
`Outcome.CallsAtMost` bounds their number. Bounds add up when computations are put one
after the other, so one for a whole rule follows from those of its parts.

A rule has a part for each of its nodes. Its value is cast at most once, by whatever it
is an operand or an argument of, and a function that takes an argument as it is, as a
conditional takes its branches, leaves the cast to what the call is part of. So there are
no more calls than parts, and as the value of the whole rule is not cast, there is one
less. No assumption about the caster is needed. It may answer wrongly, but no answer of
it is ever cast again.

## Main definitions

* `Outcome.CallsAtMost`: A computation makes at most so many calls.
* `Argument.Frugal`: An argument makes fewer calls than it has parts.

## Theorems

* `Outcome.CallsAtMost.bind`: Bounds of computations in turn add up.
* `Caster.callsAtMost_castValue`: The cast of a value is at most one call.
* `Semantics.callsAtMost_apply`: An operator calls for each operand once.
* `Builtin.callsAtMost_call`: A function does for each argument, besides evaluating it.
* `Evaluator.callsAtMost_eval`: A rule makes fewer calls than it has parts.
* `Evaluator.calls_fewer_than_parts`: The same of the values that a rule is evaluated for.
-/

namespace Criteria

variable {σ α β : Type}

/-- Whether a computation puts at most so many calls behind those on record, from
    whatever record and state it is run. -/
def Outcome.CallsAtMost (n : Nat) (x : Outcome (Recorder (StateM σ)) α) : Prop :=
  ∀ log init, ∃ own : List Call, own.length ≤ n ∧ (x.runFrom log init).1.2 = log ++ own

namespace Outcome

variable {x : Outcome (Recorder (StateM σ)) α} {f : α → Outcome (Recorder (StateM σ)) β}
  {n k : Nat}

theorem callsAtMost_ofExcept (r : Except EvalError α) (n : Nat) :
    (ofExcept r : Outcome (Recorder (StateM σ)) α).CallsAtMost n :=
  fun log _ => ⟨[], Nat.zero_le n, (List.append_nil log).symm⟩

theorem callsAtMost_pure (a : α) (n : Nat) :
    (pure a : Outcome (Recorder (StateM σ)) α).CallsAtMost n :=
  callsAtMost_ofExcept (.ok a) n

theorem callsAtMost_throw (err : EvalError) (n : Nat) :
    (throw err : Outcome (Recorder (StateM σ)) α).CallsAtMost n :=
  callsAtMost_ofExcept (.error err) n

namespace CallsAtMost

theorem mono (h : x.CallsAtMost n) (hle : n ≤ k) : x.CallsAtMost k := by
  intro log init
  rcases h log init with ⟨own, hown, hrun⟩
  exact ⟨own, by omega, hrun⟩

/-- What the second of two computations puts on record comes behind what the first one
    has put there. -/
theorem bind (hx : x.CallsAtMost n) (hf : ∀ a, (f a).CallsAtMost k) :
    CallsAtMost (n + k) (x >>= f) := by
  intro log init
  rcases hx log init with ⟨own, hown, hrun⟩
  rw [runFrom_bind]
  rcases h : x.runFrom log init with ⟨⟨r, log'⟩, s⟩
  rw [h] at hrun
  simp only at hrun
  cases r with
  | error err => exact ⟨own, by omega, hrun⟩
  | ok a =>
      rcases hf a log' s with ⟨own', hown', hrun'⟩
      refine ⟨own ++ own', ?_, ?_⟩
      · rw [List.length_append]
        omega
      · rw [hrun', hrun, List.append_assoc]

/-- A run that starts from the empty record leaves its own calls on it. -/
theorem length_calls_le (h : x.CallsAtMost n) (init : σ) : (x.calls init).length ≤ n := by
  rcases h [] init with ⟨own, hown, hrun⟩
  rw [calls, hrun, List.nil_append]
  exact hown

end CallsAtMost

end Outcome

/-- A value of the target type is no call, and any other value is one call or none. -/
theorem Caster.callsAtMost_castValue (caster : Caster (StateM σ)) (v : Value)
    (target : ScalarType) :
    (caster.recorded.castValue v target).CallsAtMost (if v.type = target then 0 else 1) := by
  by_cases hself : v.type = target
  · rw [← hself, castValue_self]
    exact Outcome.callsAtMost_pure v _
  rw [if_neg hself]
  by_cases hfin : ∀ x, v = .float x → x.isFinite = true
  · rw [castValue_toJson _ v target hself hfin]
    intro log init
    rw [runFrom_recorded]
    exact ⟨[(v.toJson, target)], Nat.le_refl 1, rfl⟩
  · simp only [not_forall, Bool.not_eq_true] at hfin
    rcases hfin with ⟨x, rfl, hinf⟩
    rw [castValue_infinite _ x target (Ne.symm hself) hinf]
    split
    · exact Outcome.callsAtMost_pure _ _
    · exact Outcome.callsAtMost_throw _ _

namespace Semantics

variable (s : Semantics (StateM σ))

theorem callsAtMost_coerce (v : Value) (target : ScalarType) :
    (s.recorded.coerce v target).CallsAtMost 1 := by
  unfold coerce
  split
  · exact Outcome.callsAtMost_pure v 1
  · next hne =>
      have hcast := s.caster.callsAtMost_castValue v target
      rw [if_neg hne] at hcast
      refine hcast.bind (k := 0) fun w => ?_
      split
      · exact Outcome.callsAtMost_pure w 0
      · exact Outcome.callsAtMost_throw _ 0

/-- An operator at a type calls once for each of its operands that is of another type. -/
theorem callsAtMost_apply (kind : ScalarType) (op : Operator) (x y : Value) :
    (s.recorded.apply kind op (.value x) (.value y)).CallsAtMost
      ((if x.type = kind then 0 else 1) + if y.type = kind then 0 else 1) := by
  refine (s.caster.callsAtMost_castValue x kind).bind fun a =>
    (s.caster.callsAtMost_castValue y kind).bind (k := 0) fun b => ?_
  rw [combine_eq]
  exact Outcome.callsAtMost_ofExcept _ 0

end Semantics

namespace Argument

/-- Whether evaluating an argument makes fewer calls than the argument has parts. -/
def Frugal (c : Context) (a : Argument (Recorder (StateM σ))) : Prop :=
  (a.eval c).CallsAtMost (a.expr.parts.length - 1)

namespace Frugal

variable {s : Semantics (StateM σ)} {c : Context} {a : Argument (Recorder (StateM σ))}

/-- The call for the argument itself is the one that its parts leave room for. -/
theorem evalAs (h : a.Frugal c) (target : ScalarType) :
    (a.evalAs s.recorded c target).CallsAtMost a.expr.parts.length := by
  have hpos := List.length_pos_of_mem a.expr.mem_parts_self
  have hbind := h.bind fun v => s.callsAtMost_coerce v target
  rw [Nat.sub_add_cancel hpos] at hbind
  exact hbind

theorem evalBool (h : a.Frugal c) :
    (a.evalBool s.recorded c).CallsAtMost a.expr.parts.length := by
  refine (h.evalAs .bool).bind (k := 0) fun v => ?_
  cases v with
  | bool b => exact Outcome.callsAtMost_pure b 0
  | int n => exact Outcome.callsAtMost_throw _ 0
  | float x => exact Outcome.callsAtMost_throw _ 0
  | string t => exact Outcome.callsAtMost_throw _ 0

theorem evalString (h : a.Frugal c) :
    (a.evalString s.recorded c).CallsAtMost a.expr.parts.length := by
  refine (h.evalAs .string).bind (k := 0) fun v => ?_
  cases v with
  | string t => exact Outcome.callsAtMost_pure t 0
  | int n => exact Outcome.callsAtMost_throw _ 0
  | float x => exact Outcome.callsAtMost_throw _ 0
  | bool b => exact Outcome.callsAtMost_throw _ 0

end Frugal

end Argument

namespace Builtin

variable {s : Semantics (StateM σ)} {c : Context} {as : List (Argument (Recorder (StateM σ)))}

/-- How many parts arguments have together. -/
def partCount (as : List (Argument (Recorder (StateM σ)))) : Nat :=
  (as.flatMap fun a => a.expr.parts).length

theorem partCount_cons (a : Argument (Recorder (StateM σ))) :
    partCount (a :: as) = a.expr.parts.length + partCount as := by
  rw [partCount, List.flatMap_cons, List.length_append]
  rfl

/-- A scan takes each argument for a truth value at most once. -/
theorem callsAtMost_scan (stop : Bool) (h : ∀ a ∈ as, a.Frugal c) :
    (scan stop s.recorded c as).CallsAtMost (partCount as) := by
  induction as with
  | nil => exact Outcome.callsAtMost_pure _ _
  | cons a rest ih =>
      rw [List.forall_mem_cons] at h
      rw [partCount_cons]
      refine h.1.evalBool.bind fun b => ?_
      by_cases hstop : b = stop
      · rw [if_pos hstop]
        exact Outcome.callsAtMost_pure _ _
      · rw [if_neg hstop]
        exact ih h.2

theorem callsAtMost_conjunction (h : ∀ a ∈ as, a.Frugal c) :
    (conjunction s.recorded as c).CallsAtMost (partCount as) := by
  cases as with
  | nil => exact Outcome.callsAtMost_throw _ _
  | cons a rest =>
      rw [conjunction_cons]
      exact callsAtMost_scan false h

theorem callsAtMost_disjunction (h : ∀ a ∈ as, a.Frugal c) :
    (disjunction s.recorded as c).CallsAtMost (partCount as) := by
  cases as with
  | nil => exact Outcome.callsAtMost_throw _ _
  | cons a rest =>
      rw [disjunction_cons]
      exact callsAtMost_scan true h

theorem callsAtMost_negation (h : ∀ a ∈ as, a.Frugal c) :
    (negation s.recorded as c).CallsAtMost (partCount as) := by
  by_cases hlength : as.length = 1
  · rcases List.length_eq_one_iff.1 hlength with ⟨a, rfl⟩
    have hbool := (h a List.mem_cons_self).evalBool (s := s)
    rw [partCount_cons]
    exact hbool.bind (k := 0) fun b => Outcome.callsAtMost_pure _ 0
  · rw [negation_arity _ as c hlength]
    exact Outcome.callsAtMost_throw _ _

/-- The branch that is taken is evaluated and not cast, so less than its parts allow. -/
theorem callsAtMost_conditional (h : ∀ a ∈ as, a.Frugal c) :
    (conditional s.recorded as c).CallsAtMost (partCount as) := by
  by_cases hlength : as.length = 3
  · rcases List.length_eq_three.1 hlength with ⟨condition, yes, no, rfl⟩
    simp only [List.forall_mem_cons] at h
    rcases h with ⟨hcondition, hyes, hno, -⟩
    rw [partCount_cons, partCount_cons, partCount_cons]
    refine hcondition.evalBool.bind fun b => ?_
    cases b with
    | true => exact hyes.mono (by omega)
    | false => exact hno.mono (by omega)
  · rw [conditional_arity _ as c hlength]
    exact Outcome.callsAtMost_throw _ _

theorem callsAtMost_length (h : ∀ a ∈ as, a.Frugal c) :
    (length s.recorded as c).CallsAtMost (partCount as) := by
  by_cases hlength : as.length = 1
  · rcases List.length_eq_one_iff.1 hlength with ⟨a, rfl⟩
    have hstring := (h a List.mem_cons_self).evalString (s := s)
    rw [partCount_cons]
    exact hstring.bind (k := 0) fun t => Outcome.callsAtMost_pure _ 0
  · rw [length_arity _ as c hlength]
    exact Outcome.callsAtMost_throw _ _

theorem callsAtMost_contains (h : ∀ a ∈ as, a.Frugal c) :
    (contains s.recorded as c).CallsAtMost (partCount as) := by
  by_cases hlength : as.length = 2
  · rcases List.length_eq_two.1 hlength with ⟨whole, part, rfl⟩
    simp only [List.forall_mem_cons] at h
    rcases h with ⟨hwhole, hpart, -⟩
    rw [partCount_cons, partCount_cons]
    exact hwhole.evalString.bind fun t =>
      hpart.evalString.bind (k := 0) fun t' => Outcome.callsAtMost_pure _ 0
  · rw [contains_arity _ as c hlength]
    exact Outcome.callsAtMost_throw _ _

/-- A call by any name casts each of its arguments at most once. -/
theorem callsAtMost_call (function : String) (h : ∀ a ∈ as, a.Frugal c) :
    (Registry.builtins.call function s.recorded as c).CallsAtMost (partCount as) := by
  rcases Registry.call_builtins_cases function s.recorded as c with ⟨handler, hmem, hcall⟩ | hcall
  · rw [hcall]
    simp only [all, List.mem_cons, Prod.mk.injEq, List.not_mem_nil, or_false] at hmem
    rcases hmem with ⟨-, rfl⟩ | ⟨-, rfl⟩ | ⟨-, rfl⟩ | ⟨-, rfl⟩ | ⟨-, rfl⟩ | ⟨-, rfl⟩
    · exact callsAtMost_conjunction h
    · exact callsAtMost_disjunction h
    · exact callsAtMost_negation h
    · exact callsAtMost_conditional h
    · exact callsAtMost_length h
    · exact callsAtMost_contains h
  · rw [hcall]
    exact Outcome.callsAtMost_throw _ _

end Builtin

namespace Evaluator

variable (s : Semantics (StateM σ)) (c : Context)

/-- Suspended arguments have the parts of the expressions that they are. -/
theorem partCount_arguments (ev : Evaluator (Recorder (StateM σ))) (args : List Expr) :
    Builtin.partCount (args.map ev.argument) = (args.flatMap Expr.parts).length := by
  rw [Builtin.partCount, List.flatMap_map]
  rfl

/-- A rule makes fewer calls than it has parts. -/
theorem callsAtMost_eval (e : Expr) :
    ((withBuiltins s.recorded).eval e c).CallsAtMost (e.parts.length - 1) := by
  induction e using Expr.induct with
  | literal v =>
      rw [eval_literal]
      exact Outcome.callsAtMost_pure v _
  | reference name =>
      rw [eval_variable]
      exact Outcome.callsAtMost_ofExcept _ _
  | binary op left right hleft hright =>
      have hleftPos := List.length_pos_of_mem left.mem_parts_self
      have hrightPos := List.length_pos_of_mem right.mem_parts_self
      rw [eval_binary, Expr.parts, List.length_cons, List.length_append]
      -- The two calls for the operands are those that the operands leave room for.
      have hbind := hleft.bind fun x => hright.bind fun y =>
        (s.callsAtMost_apply (op.operandType x y) op x y).mono (k := 2) (by split <;> split <;> omega)
      exact hbind.mono (by omega)
  | call function args hargs =>
      have hfrugal : ∀ a ∈ args.map (withBuiltins s.recorded).argument, a.Frugal c := by
        intro a ha
        rcases List.mem_map.1 ha with ⟨e, he, rfl⟩
        exact hargs e he
      have hcall := Builtin.callsAtMost_call (s := s) function hfrugal
      rw [partCount_arguments] at hcall
      rw [eval_call, Expr.parts, Expr.argumentParts_eq_flatMap, List.length_cons,
        Nat.add_sub_cancel]
      exact hcall

/-- However a caster answers, it is called at most once for each part of a rule, and not
    for the rule itself unless the value of the rule is wanted at a type. -/
theorem calls_fewer_than_parts (e : Expr) (init : σ) :
    (((withBuiltins s.recorded).eval e c).calls init).length ≤ e.parts.length - 1 ∧
      (((withBuiltins s.recorded).evalBool e c).calls init).length ≤ e.parts.length ∧
      (((withBuiltins s.recorded).evalString e c).calls init).length ≤ e.parts.length ∧
      ∀ target, (((withBuiltins s.recorded).evalAs e c target).calls init).length ≤
        e.parts.length := by
  have heval := callsAtMost_eval s c e
  have hfrugal : ((withBuiltins s.recorded).argument e).Frugal c := heval
  exact ⟨heval.length_calls_le init, hfrugal.evalBool.length_calls_le init,
    hfrugal.evalString.length_calls_le init,
    fun target => (hfrugal.evalAs target).length_calls_le init⟩

/-- There is no smaller bound: a conjunction of a number and a text casts both. -/
example :
    let s : Semantics (StateM Unit) := ⟨⟨fun _ target => pure (.bool (target == .bool))⟩, .error⟩
    let e : Expr := .call "and" [.literal (.int 1), .literal (.string "yes")]
    (((withBuiltins s.recorded).eval e .empty).calls ()).length = e.parts.length - 1 :=
  rfl

end Evaluator

end Criteria
