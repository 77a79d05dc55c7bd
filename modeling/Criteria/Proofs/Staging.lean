import Criteria.Proofs.Locality
import Criteria.Proofs.Operands

/-!
# Staging

Values of parts, handed on through the context.

A part of a rule can be evaluated first, its value bound to a new name, and the name
put in place of the part, at some of its occurrences or at all of them. The rule
does not notice. Three things come together in this. The value of the part has a
form as data, and the value of that form is the value again, with its type and with
all bits of a double. The name is new, so nothing else in the rule hangs on it, and
the part does not either where it is left standing. And a rule looks at its parts
only through what they come to.

A double that is not finite has no form as data. Bound to a name it is null, and
reading the name fails.

## Theorems

* `Value.canonical_toJson`: The form of a value is canonical.
* `Evaluator.eval_set`: A rule does not notice the binding of a new name.
* `Evaluator.eval_staged`: A name bound to a value gives the value back.
* `Evaluator.staging_keeps_value`: A rule keeps its value if parts of it are staged.
-/

namespace Criteria

theorem Value.canonical_toJson (v : Value) : v.toJson.canonical = v.toJson := by
  cases v with
  | int n => rfl
  | float x =>
      have hnumber : (Value.float x).toJson = ((Json.Number.ofFloat? x).map Json.number).getD .null :=
        rfl
      rw [hnumber]
      cases Json.Number.ofFloat? x with
      | none => rfl
      | some n => rfl
  | string s => rfl
  | bool b => rfl

theorem Context.get?_set_self (c : Context) (name : String) (j : Json) :
    (c.set name j).get? name = some j.canonical := by
  have hbound : (c.set name j).bindings.get? name = some j.canonical := by
    rw [set, Bindings.get?_insert, if_pos rfl]
  rw [get?, hbound]

namespace Evaluator

variable {m : Type → Type} [Monad m] (s : Semantics m) {c : Context} {x : String}

/-- A rule does not notice the binding of a name if none of its variables is this
    name or a path that starts there. -/
theorem eval_set {e : Expr} (h : ∀ name, .variable name ∈ e.parts →
      name ≠ x ∧ (Path.segments name).head? ≠ some x) (j : Json) :
    (withBuiltins s).eval e (c.set x j) = (withBuiltins s).eval e c := by
  refine (Correspondence.equality m).eval_rel_of_agree (Correspondence.equality_agrees s) e _ _ ?_
  intro name hname
  refine c.get?_set_of_not_readsFrom name x j fun hreads => ?_
  rcases hreads with hself | ⟨-, hpath⟩
  · exact (h name hname).1 hself
  · exact (h name hname).2 hpath

/-- A name bound to a value is read as the value of the form that it has as data. -/
theorem eval_staged (v : Value) :
    (withBuiltins s).eval (.variable x) (c.set x v.toJson) =
      Outcome.ofExcept (Value.ofJson v.toJson) := by
  rw [eval_variable, Context.lookup, Context.get?_set_self, v.canonical_toJson]
  rfl

/-- A rule keeps its value, or its error, if the value of a part is bound to a new
    name and this name takes the place of the part, wherever one likes. A double that
    is not finite cannot be handed on like this: the name has no value. -/
theorem staging_keeps_value (e part staged : Expr) (v : Value)
    (hpart : (withBuiltins s).eval part c = pure v)
    (hnew : ∀ name, .variable name ∈ e.parts ∨ .variable name ∈ part.parts →
      name ≠ x ∧ (Path.segments name).head? ≠ some x)
    (hstaged : e.Rewritten (fun a b => a = part ∧ b = .variable x) staged) :
    ((∀ y, v = .float y → y.isFinite = true) →
      (withBuiltins s).eval staged (c.set x v.toJson) = (withBuiltins s).eval e c) ∧
    (∀ y, v = .float y → y.isFinite = false →
      (withBuiltins s).eval (.variable x) (c.set x v.toJson) = throw (.noScalarForm "null")) := by
  refine ⟨fun hfinite => ?_, fun y hy hinfinite => ?_⟩
  -- In the new context the name and the part come to the same value.
  · have hname : (withBuiltins s).eval (.variable x) (c.set x v.toJson) = pure v := by
      rw [eval_staged, Value.ofJson_toJson hfinite, Outcome.ofExcept_ok]
    have hleft : (withBuiltins s).eval part (c.set x v.toJson) = pure v := by
      rw [eval_set s fun name hvariable => hnew name (Or.inr hvariable), hpart]
    calc (withBuiltins s).eval staged (c.set x v.toJson)
        = (withBuiltins s).eval e (c.set x v.toJson) :=
          ((Correspondence.equality m).rewritten_rel (Correspondence.equality_agrees s) _ _
            (fun a b h => by rw [h.1, h.2]; exact hleft.trans hname.symm) hstaged).symm
      _ = (withBuiltins s).eval e c :=
          eval_set s (fun name hvariable => hnew name (Or.inl hvariable)) _
  · have hnull : v.toJson = .null := by
      rw [hy, Value.toJson_infinite y hinfinite]
    have hvalue : Value.ofJson .null = .error (.noScalarForm "null") := rfl
    rw [eval_staged, hnull, hvalue, Outcome.ofExcept_error]

/-- The length of a text, staged at the first of two places where it is needed. -/
theorem staging_keeps_value_length :
    let s : Semantics Id := ⟨Caster.json, .error⟩
    let c := Context.empty.set "user" (.object [("name", .string "Ada")])
    let part : Expr := .call "len" [.variable "user.name"]
    let e : Expr := .binary .multiply part part
    let staged : Expr := .binary .multiply (.variable "n") part
    (withBuiltins s).eval part c = pure (.int 3) ∧
      (∀ name, .variable name ∈ e.parts ∨ .variable name ∈ part.parts →
        name ≠ "n" ∧ (Path.segments name).head? ≠ some "n") ∧
      e.Rewritten (fun a b => a = part ∧ b = .variable "n") staged ∧
      (∀ y, Value.int 3 = .float y → y.isFinite = true) ∧
      (withBuiltins s).eval staged (c.set "n" (Value.int 3).toJson) =
        (withBuiltins s).eval e c := by
  intro s c part e staged
  have hpart : (withBuiltins s).eval part c = pure (.int 3) := rfl
  have hnew : ∀ name, .variable name ∈ e.parts ∨ .variable name ∈ part.parts →
      name ≠ "n" ∧ (Path.segments name).head? ≠ some "n" := by
    intro name hname
    have hvariable : name = "user.name" := by
      simpa [e, part, Expr.parts, Expr.argumentParts] using hname
    rw [hvariable]
    decide
  have hstaged : e.Rewritten (fun a b => a = part ∧ b = .variable "n") staged :=
    .binary .multiply (.replaced ⟨rfl, rfl⟩) (.same part)
  have hfinite : ∀ y, Value.int 3 = .float y → y.isFinite = true := by
    intro y hy
    cases hy
  exact ⟨hpart, hnew, hstaged, hfinite,
    (staging_keeps_value s e part staged _ hpart hnew hstaged).1 hfinite⟩

end Evaluator

end Criteria
