import Criteria.Proofs.Causes

/-!
# Extensions of Registries

Registries with more functions than others.

An extension has the functions of another registry under the same names, and may have any
others. A rule cannot call what it has no name for. Where it calls a function that both
registries have, it goes the same way with either, and where it calls one that only the
extension has, it has halted at an unknown function without it. So its evaluations with the
two correspond, if a computation that has halted in this way corresponds to everything.

The error for an unknown function is raised nowhere else in a rule. It may be that the caster
gives it. Casters come from outside, and operators and built-in functions hand their errors
on.

## Main definitions

* `Registry.registerAll`: A registry with more functions.
* `Registry.Extends`: A registry has the functions of another.
* `Correspondence.halting`: Computations of which the first may have halted at an
  unknown function.

## Theorems

* `Registry.get?_registerAll`: Functions under other names do not change what a name
  stands for.
* `Correspondence.eval_rel_of_extends`: Evaluations with a registry and an extension of
  it correspond, where unknown functions correspond to anything.
* `Semantics.apply_handed_on`: An error that operators do not raise is one of a cast.
* `Evaluator.unknownFunction_cause`: Where the error for an unknown function comes from.
* `Evaluator.eval_extended`: A rule is not affected by an extension unless it fails for
  want of a function.
-/

namespace Criteria

namespace Registry

variable {m : Type → Type}

/-- A registry with more functions, registered one after the other. -/
def registerAll (r : Registry m) (added : List (String × Handler m)) : Registry m :=
  added.foldl (fun r f => r.register f.1 f.2) r

/-- Whether a registry has all functions of another, under the same names. -/
def Extends (r' r : Registry m) : Prop :=
  ∀ name h, r.get? name = some h → r'.get? name = some h

theorem get?_register (r : Registry m) (name : String) (h : Handler m) (key : String) :
    (r.register name h).get? key = if key = name then some h else r.get? key :=
  Bindings.get?_insert r.functions name key h

/-- Functions under other names do not change what a name stands for. -/
theorem get?_registerAll {name : String} {added : List (String × Handler m)}
    (hadded : ∀ f ∈ added, f.1 ≠ name) (r : Registry m) :
    (r.registerAll added).get? name = r.get? name := by
  induction added generalizing r with
  | nil => rfl
  | cons f rest ih =>
      have hfirst : name ≠ f.1 := (hadded f List.mem_cons_self).symm
      have hrest := ih (fun g hg => hadded g (List.mem_cons_of_mem f hg)) (r.register f.1 f.2)
      rw [get?_register, if_neg hfirst] at hrest
      exact hrest

end Registry

namespace Correspondence

variable {m : Type → Type} [Monad m]

/-- Evaluations with a registry of built-in functions and with an extension of it
    correspond, if a computation that halts at an unknown function corresponds to
    everything. -/
theorem eval_rel_of_extends (R : Correspondence m m)
    (hunknown : ∀ {α : Type} (name : String) (y : Outcome m α),
      R.Rel (throw (.unknownFunction name)) y)
    {s s' : Semantics m} (hs : R.Agrees s s') {r r' : Registry m}
    (hbuiltin : ∀ name h, r.get? name = some h → (name, h) ∈ Builtin.all)
    (hext : r'.Extends r) (e : Expr) (c : Context) :
    R.Rel (Evaluator.eval ⟨s, r⟩ e c) (Evaluator.eval ⟨s', r'⟩ e c) := by
  induction e using Expr.induct with
  | literal v =>
      rw [Evaluator.eval_literal, Evaluator.eval_literal]
      exact R.rel_pure v
  | reference name => exact R.variable_rel _ _ name rfl
  | binary op left right hleft hright => exact R.binary_rel hs op hleft hright
  | call function args hargs =>
      rw [Evaluator.eval_call, Evaluator.eval_call]
      unfold Registry.call
      cases hget : r.get? function with
      -- The computation halts here, whatever the extension does.
      | none => exact hunknown function _
      | some h =>
          -- The extension calls the same function, on arguments that correspond.
          have harguments : List.Forall₂ (fun a b => R.Rel (a.eval c) (b.eval c))
              (args.map (Evaluator.argument ⟨s, r⟩)) (args.map (Evaluator.argument ⟨s', r'⟩)) :=
            List.forall₂_map_left_iff.2 (List.forall₂_map_right_iff.2 (List.forall₂_same.2 hargs))
          have hhandlers := List.forall₂_same.1 (R.all_rel hs harguments)
          simp only [hext function h hget]
          exact (hhandlers _ (hbuiltin function h hget)).2

section Halting

variable {σ : Type}

/-- Computations of which the first has the result of the second, from every state of
    the caster, or has halted at an unknown function. -/
def halting (σ : Type) : Correspondence (StateM σ) (StateM σ) where
  Rel x y := ∀ init, (∃ name, (x.run.run init).1 = .error (.unknownFunction name)) ∨
    x.run.run init = y.run.run init
  rel_pure _ _ := Or.inr rfl
  rel_throw _ _ _ := Or.inr rfl
  rel_bind {α β x y f g} hx hf init := by
    have hbind : ∀ (z : Outcome (StateM σ) α) (k : α → Outcome (StateM σ) β),
        (z >>= k).run.run init =
          StateT.run (ExceptT.bindCont k (z.run.run init).1) (z.run.run init).2 := fun _ _ => rfl
    -- A halt in the first step is one of the whole, and otherwise the first steps agree.
    rw [hbind, hbind]
    rcases hx init with ⟨name, hhalt⟩ | heq
    · rw [hhalt]
      exact Or.inl ⟨name, rfl⟩
    · rw [← heq]
      rcases x.run.run init with ⟨r, final⟩
      cases r with
      | ok a => exact hf a final
      | error err => exact Or.inr rfl

theorem halting_agrees (s : Semantics (StateM σ)) : (halting σ).Agrees s s :=
  ⟨fun _ _ _ _ => Or.inr rfl, fun _ _ _ _ => Or.inr rfl⟩

end Halting

end Correspondence

section Causes

variable {m : Type → Type} [Monad m] [LawfulMonad m] [MonadAttach m] [LawfulMonadAttach m]

/-- An error that operators do not raise themselves is the error of a cast. -/
theorem Semantics.apply_handed_on {s : Semantics m} {kind : ScalarType} {op : Operator}
    {x y : Operand} {err : EvalError} (hop : err.ofOperator = false)
    (h : (s.apply kind op x y).MayEnd (.error err)) :
    (x.cast s.caster kind).MayEnd (.error err) ∨ (y.cast s.caster kind).MayEnd (.error err) := by
  rcases s.apply_cases h with ⟨err', hcast, heq⟩ | ⟨a, b, _, _, heq⟩
  · cases heq
    exact hcast
  -- What the operator itself comes to is none of the other errors.
  cases hcombine : op.combine? s.division kind a b with
  | none =>
      rw [hcombine] at heq
      cases heq
      cases hop
  | some r =>
      rw [hcombine, Option.getD_some] at heq
      subst heq
      rcases op.combine?_cases _ _ _ _ _ hcombine with ⟨v, hv, _⟩ | ⟨hr, _⟩ | ⟨hr, _⟩
      · cases hv
      · cases hr
        cases hop
      · cases hr
        cases hop

/-- That a function is unknown is no reason for a cast to be refused, unless the caster
    gives it as one. -/
theorem Caster.unknownFunction_of_castValue {caster : Caster m} {v : Value} {target : ScalarType}
    {name : String} (h : (caster.castValue v target).MayEnd (.error (.unknownFunction name))) :
    ∃ j, (caster.cast j target).MayEnd (.error (.unknownFunction name)) := by
  rcases castValue_ending h with ⟨w, heq, _⟩ | hcast | heq
  · cases heq
  · exact ⟨_, hcast⟩
  · cases heq

/-- A call of a function that fails has failed for its number of arguments, or on an
    argument, or on the cast of one. -/
theorem Builtin.Ending.failure {s : Semantics m} {c : Context} {as : List (Argument m)}
    {function : String} {err : EvalError} (h : Ending s c as function (.error err))
    (hname : function ∈ names) :
    (∃ fault, err = arityError function fault) ∨ (∃ a ∈ as, (a.eval c).MayEnd (.error err)) ∨
      ∃ v target, (s.coerce v target).MayEnd (.error err) := by
  cases h with
  | unknown hnone => exact absurd hname hnone
  | arity _ => exact Or.inl ⟨_, rfl⟩
  | argument _ ha hfail =>
      rcases Argument.evalAs_failure hfail with hfail | ⟨v, _, hcoerce⟩
      · exact Or.inr (Or.inl ⟨_, mem_of_mem_castArguments ha, hfail⟩)
      · exact Or.inr (Or.inr ⟨v, _, hcoerce⟩)
  | branch has htaken hfail =>
      refine Or.inr (Or.inl ⟨_, ?_, hfail⟩)
      rw [has]
      rcases htaken with rfl | rfl
      · exact List.mem_cons_of_mem _ List.mem_cons_self
      · exact List.mem_cons_of_mem _ (List.mem_cons_of_mem _ List.mem_cons_self)

namespace Evaluator

/-- Where a rule ends with the error for an unknown function, the rule has a call of a
    function that is not in the registry, or the caster has given the error itself. -/
theorem unknownFunction_cause {ev : Evaluator m}
    (hbuiltin : ∀ name h, ev.registry.get? name = some h → (name, h) ∈ Builtin.all)
    {c : Context} {name : String} (e : Expr)
    (h : (ev.eval e c).MayEnd (.error (.unknownFunction name))) :
    ((∃ args, .call name args ∈ e.parts) ∧ ev.registry.contains name = false) ∨
      ∃ j target, (ev.caster.cast j target).MayEnd (.error (.unknownFunction name)) := by
  have hcast : ∀ {v : Value} {target : ScalarType},
      (ev.caster.castValue v target).MayEnd (.error (.unknownFunction name)) →
        ∃ j target, (ev.caster.cast j target).MayEnd (.error (.unknownFunction name)) :=
    fun h => (Caster.unknownFunction_of_castValue h).imp fun j hj => ⟨_, hj⟩
  -- A call in a part of the rule is one in the rule.
  have hpart : ∀ {part whole : Expr}, (∀ inner ∈ part.parts, inner ∈ whole.parts) →
      ((∃ args, .call name args ∈ part.parts) ∧ ev.registry.contains name = false) →
      (∃ args, .call name args ∈ whole.parts) ∧ ev.registry.contains name = false :=
    fun hsub ⟨⟨args, hargs⟩, hnone⟩ => ⟨⟨args, hsub _ hargs⟩, hnone⟩
  induction e using Expr.induct with
  | literal v =>
      rw [eval_literal] at h
      cases Outcome.eq_of_mayEnd_pure h
  | reference other =>
      rw [eval_variable] at h
      have hlookup := Outcome.eq_of_mayEnd_ofExcept h
      unfold Context.lookup at hlookup
      cases hget : c.get? other with
      | none =>
          rw [hget] at hlookup
          cases hlookup
      | some j =>
          rw [hget] at hlookup
          cases (Value.ofJson_error hlookup.symm).2
  | binary op left right hleft hright =>
      rw [eval_binary] at h
      rcases Outcome.mayEnd_bind h with ⟨err, hfail, heq⟩ | ⟨x, _, h⟩
      · cases heq
        refine (hleft hfail).imp_left (hpart fun _ hinner => ?_)
        exact Expr.mem_parts_binary.2 (Or.inr (Or.inl hinner))
      rcases Outcome.mayEnd_bind h with ⟨err, hfail, heq⟩ | ⟨y, _, h⟩
      · cases heq
        refine (hright hfail).imp_left (hpart fun _ hinner => ?_)
        exact Expr.mem_parts_binary.2 (Or.inr (Or.inr hinner))
      -- Operators do not raise this error, so it comes from a cast of an operand.
      · exact Or.inr ((Semantics.apply_handed_on rfl h).elim hcast hcast)
  | call function args hargs =>
      rw [eval_call] at h
      unfold Registry.call at h
      cases hget : ev.registry.get? function with
      | none =>
          rw [hget] at h
          cases Outcome.eq_of_mayEnd_throw h
          refine Or.inl ⟨⟨args, Expr.mem_parts_self _⟩, ?_⟩
          rw [Registry.contains, Bindings.contains, ← Registry.get?, hget, Option.isSome_none]
      | some handler =>
          rw [hget] at h
          have hmem := hbuiltin function handler hget
          have hname : function ∈ Builtin.names :=
            Builtin.names_eq (m := m) ▸ List.mem_map_of_mem hmem
          -- A known function only hands the error on, from an argument or from a cast.
          rcases (Builtin.all_ending hmem h).failure hname with
            ⟨fault, heq⟩ | ⟨argument, hargument, hfail⟩ | ⟨v, target, hcoerce⟩
          · cases heq
          · rcases List.mem_map.1 hargument with ⟨a, ha, rfl⟩
            refine (hargs a ha hfail).imp_left (hpart fun _ hinner => ?_)
            exact Expr.mem_parts_call.2 (Or.inr ⟨a, ha, hinner⟩)
          · rcases (Semantics.coerce_failure _ hcoerce).2 with hfail | ⟨w, _, _, heq⟩
            · exact Or.inr (hcast hfail)
            · cases heq

end Evaluator

end Causes

namespace Evaluator

section OfSettings

variable {m : Type → Type} [Monad m]

/-- Settings ask for the built-in functions or for none. -/
theorem mem_all_of_ofSettings {settings : Settings} {caster : Caster m} (name : String)
    (h : Handler m) (hget : (ofSettings settings caster).registry.get? name = some h) :
    (name, h) ∈ Builtin.all := by
  obtain ⟨division, builtins⟩ := settings
  cases builtins with
  | false => cases hget
  | true => exact Registry.mem_all_of_get?_builtins hget

/-- The built-in functions are an extension of no functions. -/
theorem extends_builtins (division : DivisionPolicy) (caster : Caster m) (builtins : Bool) :
    (ofSettings ⟨division, true⟩ caster).registry.Extends
      (ofSettings ⟨division, builtins⟩ caster).registry := by
  intro name h hget
  cases builtins with
  | false => cases hget
  | true => exact hget

end OfSettings

variable {σ : Type}

/-- With more functions a rule goes the same way as without them, unless it has failed
    for want of one. -/
theorem eval_extended {s : Semantics (StateM σ)} {r r' : Registry (StateM σ)}
    (hbuiltin : ∀ name h, r.get? name = some h → (name, h) ∈ Builtin.all) (hext : r'.Extends r)
    {e : Expr} {c : Context} {init : σ}
    (hknown : ∀ name, ((eval ⟨s, r⟩ e c).run.run init).1 ≠ .error (.unknownFunction name)) :
    (eval ⟨s, r'⟩ e c).run.run init = (eval ⟨s, r⟩ e c).run.run init := by
  have hrel := (Correspondence.halting σ).eval_rel_of_extends
    (fun name _ _ => Or.inl ⟨name, rfl⟩) (Correspondence.halting_agrees s) hbuiltin hext e c init
  rcases hrel with ⟨name, hhalt⟩ | heq
  · exact absurd hhalt (hknown name)
  · exact heq.symm

end Evaluator

end Criteria
