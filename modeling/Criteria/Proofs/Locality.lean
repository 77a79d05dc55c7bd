import Criteria.Expr.Parts
import Criteria.Proofs.Rewriting

/-!
# Locality

What of a context a rule looks at.

A rule sees its context through its variables and in no other way. Two contexts
in which all of its variables stand for the same data are the same to it: value,
error and calls of the caster do not differ. This holds of variables in arguments
too, whether or not these are ever evaluated, and nothing is assumed of the
caster.

Binding one more name can change what another name stands for, and does so in one
direction only. A name that is not bound as a whole is read as a path, and hangs
on the binding of its first segment; a name that is bound as a whole hangs on
nothing else. `Context.ReadsFrom` says which binding a name hangs on. Where no
variable of a rule hangs on a name, the rule does not notice that the name is
bound, or bound to something else.

## Main definitions

* `Context.ReadsFrom`: What a name stands for hangs on the binding of another.

## Theorems

* `Context.get?_set_of_not_readsFrom`: No other name is affected by a binding.
* `Correspondence.eval_rel_of_agree`: Evaluations in contexts that agree on the
  variables of a rule correspond.
* `Evaluator.eval_reads_own_variables`: They are equal, and bindings that no
  variable hangs on make no difference.
-/

namespace Criteria

namespace Context

/-- Whether what a name stands for hangs on the binding of another name: it is that
    name, or else it is not bound itself and is a path that starts there. -/
def ReadsFrom (c : Context) (name root : String) : Prop :=
  name = root ∨ c.bindings.contains name = false ∧ (Path.segments name).head? = some root

instance (c : Context) (name root : String) : Decidable (c.ReadsFrom name root) :=
  inferInstanceAs (Decidable (_ ∨ _ ∧ _))

/-- A binding makes no difference to names that do not hang on it. -/
theorem get?_set_of_not_readsFrom (c : Context) (name root : String) (j : Json)
    (h : ¬c.ReadsFrom name root) : (c.set root j).get? name = c.get? name := by
  rcases not_or.1 h with ⟨hne, hpath⟩
  have hwhole : (c.set root j).bindings.get? name = c.bindings.get? name := by
    rw [set, Bindings.get?_insert, if_neg hne]
  unfold get?
  rw [hwhole]
  cases hbound : c.bindings.get? name with
  | some k => rfl
  | none =>
      -- The name is read as a path, and the path starts somewhere else.
      have hfree : c.bindings.contains name = false := by
        rw [Bindings.contains, hbound, Option.isSome_none]
      cases hsegments : Path.segments name with
      | nil => rfl
      | cons first steps =>
          have hfirst : first ≠ root := by
            rintro rfl
            exact hpath ⟨hfree, by rw [hsegments, List.head?_cons]⟩
          simp only [set, Bindings.get?_insert, if_neg hfirst]

end Context

/-- Evaluations of a rule in two contexts correspond if every variable of the rule
    stands for the same data in both. -/
theorem Correspondence.eval_rel_of_agree {m n : Type → Type} [Monad m] [Monad n]
    (R : Correspondence m n) {s : Semantics m} {s' : Semantics n} (hs : R.Agrees s s')
    (e : Expr) (c c' : Context)
    (h : ∀ name, .variable name ∈ e.parts → c.get? name = c'.get? name) :
    R.Rel ((Evaluator.withBuiltins s).eval e c) ((Evaluator.withBuiltins s').eval e c') := by
  induction e using Expr.induct with
  | literal v =>
      rw [Evaluator.eval_literal, Evaluator.eval_literal]
      exact R.rel_pure v
  | reference name => exact R.variable_rel _ _ name (h name (Expr.mem_parts_self _))
  | binary op left right hleft hright =>
      refine R.binary_rel hs op (hleft fun name hname => ?_) (hright fun name hname => ?_)
      · exact h name (Expr.mem_parts_binary.2 (Or.inr (Or.inl hname)))
      · exact h name (Expr.mem_parts_binary.2 (Or.inr (Or.inr hname)))
  | call function args hargs =>
      -- Variables of an argument are variables of the call, evaluated or not.
      refine R.eval_call_rel hs function (List.forall₂_same.2 fun a ha => hargs a ha ?_)
      exact fun name hname => h name (Expr.mem_parts_call.2 (Or.inr ⟨a, ha, hname⟩))

namespace Evaluator

variable {m : Type → Type} [Monad m]

/-- The value of a rule, or its error, depends on what its own variables stand for
    and on nothing else in the context. So a rule does not notice the binding of a
    name on which none of its variables hangs. -/
theorem eval_reads_own_variables (s : Semantics m) (e : Expr) :
    (∀ c c' : Context, (∀ name, .variable name ∈ e.parts → c.get? name = c'.get? name) →
      (withBuiltins s).eval e c = (withBuiltins s).eval e c') ∧
    (∀ (c : Context) (root : String) (j : Json),
      (∀ name, .variable name ∈ e.parts → ¬c.ReadsFrom name root) →
      (withBuiltins s).eval e (c.set root j) = (withBuiltins s).eval e c) := by
  have hlocal : ∀ c c' : Context,
      (∀ name, .variable name ∈ e.parts → c.get? name = c'.get? name) →
      (withBuiltins s).eval e c = (withBuiltins s).eval e c' :=
    fun c c' h => (Correspondence.equality m).eval_rel_of_agree
      (Correspondence.equality_agrees s) e c c' h
  refine ⟨hlocal, fun c root j h => hlocal _ _ fun name hname => ?_⟩
  exact c.get?_set_of_not_readsFrom name root j (h name hname)

/-- Where `user.age` is bound as a whole, `user.age > 17` does not notice that
    `user` is bound too, to data with an age of its own. -/
theorem eval_reads_own_variables_verbatim :
    let s : Semantics Id := ⟨Caster.json, .zero⟩
    let c := Context.empty.set "user.age" (.number (.ofInt64 30))
    let user : Json := .object [("age", .number (.ofInt64 5))]
    let e : Expr := .binary .greater (.variable "user.age") (.literal (.int 17))
    ¬c.ReadsFrom "user.age" "user" ∧
      (withBuiltins s).eval e (c.set "user" user) = (withBuiltins s).eval e c := by
  intro s c user e
  have hfree : ¬c.ReadsFrom "user.age" "user" := by decide
  refine ⟨hfree, (eval_reads_own_variables s e).2 c "user" user fun name hname => ?_⟩
  have hvariable : name = "user.age" := by
    simpa [e, Expr.mem_parts_binary, Expr.parts] using hname
  exact hvariable ▸ hfree

end Evaluator

end Criteria
