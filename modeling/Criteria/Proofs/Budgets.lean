import Criteria.Proofs.Dialogues

/-!
# Budgets

How deep evaluations nest.

An activation of the evaluator lasts until its rule has a value, and the questions that are
asked meanwhile start activations of their own. When a question would start one more than
the budget allows, the whole evaluation is cut off, and no function notices, so none can go
on as if it had got an error.

With each evaluation goes its depth, the greatest number of activations that were in
progress at once. Whatever functions do, the depth is what a budget has to cover: an
evaluation that comes to its end does the same with every budget that covers its depth,
and is cut off with every smaller one.

Functions that ask for their own arguments only lead from a rule to rules of smaller
height. So depths stay within heights, and a budget of the height of a rule does not run
out. The evaluator of rules needs no budget for the same reason, and both give the same
result. A function that asks for its own call runs out of any budget.

## Main definitions

* `Expr.height`: How many rules stand within one another.
* `Metered.Completes`: An evaluation was not cut off and ended in a certain way.
* `Handler.otherwise`: A function that goes on after an error.

## Theorems

* `Expr.height_lt_of_mem_children`: Rules are higher than what they are put together from.
* `Evaluator.depth_evalWithin_le`: No evaluation is deeper than its budget.
* `Evaluator.evalWithin_of_depth_le`: Budgets that cover the depth make no difference.
* `Evaluator.evalWithin_eq_none_iff`: Smaller ones cut the evaluation off.
* `Evaluator.evalWithin_own_call`: A function that asks for its own call runs out of any
  budget.
* `Evaluator.evalWithin_completes`: A budget of the height of a rule suffices for its value.
* `Evaluator.height_bounds_activations`: So activations nest no deeper than rules.
-/

namespace Criteria

namespace Expr

mutual

/-- How many rules stand within one another, from the rule itself down to a literal, a
    variable or a call without arguments. -/
def height : Expr → Nat
  | .literal _ => 1
  | .variable _ => 1
  | .binary _ left right => max left.height right.height + 1
  | .call _ args => argumentHeight args + 1

/-- The greatest height of an argument, zero if there is none. -/
def argumentHeight : List Expr → Nat
  | [] => 0
  | e :: rest => max e.height (argumentHeight rest)

end

theorem height_pos (e : Expr) : 0 < e.height := by
  cases e <;> rw [height] <;> exact Nat.succ_pos _

theorem height_le_argumentHeight {e : Expr} {args : List Expr} (h : e ∈ args) :
    e.height ≤ argumentHeight args := by
  induction args with
  | nil => cases h
  | cons a rest ih =>
      rw [argumentHeight]
      rcases List.mem_cons.1 h with rfl | hrest
      · exact Nat.le_max_left _ _
      · exact Nat.le_trans (ih hrest) (Nat.le_max_right _ _)

theorem height_lt_of_mem_children {e child : Expr} (h : child ∈ e.children) :
    child.height < e.height := by
  cases e using Expr.induct with
  | literal v => cases h
  | reference name => cases h
  | binary op left right _ _ =>
      rw [height]
      rw [children, List.mem_cons, List.mem_singleton] at h
      rcases h with rfl | rfl
      · exact Nat.lt_succ_of_le (Nat.le_max_left _ _)
      · exact Nat.lt_succ_of_le (Nat.le_max_right _ _)
  | call function args _ =>
      rw [height]
      exact Nat.lt_succ_of_le (height_le_argumentHeight h)

end Expr

namespace Metered

variable {σ α β : Type}

/-- Whether an evaluation was not cut off and ended like this. -/
def Completes (x : Metered σ α) (ending : α × σ) : Prop :=
  x.result = some ending.1 ∧ x.state = ending.2

variable {x : Metered σ α} {rest : α → σ → Metered σ β}

theorem andThen_of_none (h : x.result = none) : x.andThen rest = ⟨none, x.depth, x.state⟩ := by
  rw [andThen, h]

theorem andThen_of_some {a : α} (h : x.result = some a) :
    x.andThen rest =
      { rest a x.state with depth := max x.depth (rest a x.state).depth } := by
  rw [andThen, h]

theorem depth_andThen_le {bound : Nat} (hx : x.depth ≤ bound)
    (hrest : ∀ a s, (rest a s).depth ≤ bound) : (x.andThen rest).depth ≤ bound := by
  cases h : x.result with
  | none =>
      rw [andThen_of_none h]
      exact hx
  | some a =>
      rw [andThen_of_some h]
      exact Nat.max_le.2 ⟨hx, hrest a x.state⟩

theorem Completes.andThen {first : α × σ} {last : β × σ} (hx : x.Completes first)
    (hrest : (rest first.1 first.2).Completes last) : (x.andThen rest).Completes last := by
  rw [andThen_of_some hx.1, hx.2]
  exact hrest

end Metered

namespace Dialogue

variable {σ α : Type}

variable {eval eval' : Expr → Context → σ → Metered σ (Except EvalError Value)} {bound : Nat}

theorem depth_metered_le (heval : ∀ e c s, (eval e c s).depth ≤ bound) (x : Dialogue σ α)
    (init : σ) : (x.metered eval init).depth ≤ bound := by
  induction x generalizing init with
  | done a => exact Nat.zero_le bound
  | act step next ih => exact ih init (step init)
  | ask e c next ih => exact Metered.depth_andThen_le (heval e c init) ih

/-- If two evaluations give the same answers up to a depth, dialogues that come to their end
    within this depth do not tell them apart. -/
theorem metered_congr
    (heval : ∀ e c s, (eval e c s).result ≠ none → (eval e c s).depth ≤ bound →
      eval' e c s = eval e c s)
    {x : Dialogue σ α} {init : σ} (hresult : (x.metered eval init).result ≠ none)
    (hdepth : (x.metered eval init).depth ≤ bound) :
    x.metered eval' init = x.metered eval init := by
  induction x generalizing init with
  | done a => rfl
  | act step next ih => exact ih init hresult hdepth
  | ask e c next ih =>
      rw [metered] at hresult hdepth
      rw [metered, metered]
      cases hanswer : (eval e c init).result with
      | none =>
          rw [Metered.andThen_of_none hanswer] at hresult
          exact absurd rfl hresult
      | some r =>
          rw [Metered.andThen_of_some hanswer] at hresult hdepth
          rcases Nat.max_le.1 hdepth with ⟨hfirst, hrest⟩
          have hsame := heval e c init (hanswer ▸ Option.some_ne_none r) hfirst
          rw [hsame, Metered.andThen_of_some hanswer, Metered.andThen_of_some hanswer,
            ih r hresult hrest]

/-- A dialogue is not cut off if none of its questions is, and it ends as it does when it
    is answered without a budget. -/
theorem AsksOnly.metered_completes {es : List Expr} {x : Dialogue σ α} (hx : x.AsksOnly es)
    {plain : Expr → Context → Outcome (StateM σ) Value}
    (heval : ∀ e ∈ es, ∀ c s, (eval e c s).Completes ((plain e c).run.run s)) (init : σ) :
    (x.metered eval init).Completes (x.answered plain init) := by
  induction x generalizing init with
  | done a => exact ⟨rfl, rfl⟩
  | act step next ih => exact ih init (hx init) (step init)
  | ask e c next ih => exact (heval e hx.1 c init).andThen (ih _ (hx.2 _) _)

end Dialogue

/-- The value of an argument or, if that is an error, of another one. -/
def Handler.otherwise {σ : Type} : Handler (Dialogue σ)
  | _, [a, b], c => tryCatch (a.eval c) fun _ => b.eval c
  | _, arguments, _ => throw (Builtin.arityError "otherwise" (.expected 2 arguments.length))

theorem Handler.otherwise_asksOnlyArguments {σ : Type} :
    (otherwise : Handler (Dialogue σ)).AsksOnlyArguments := by
  intro s args c
  rcases args with _ | ⟨a, _ | ⟨b, _ | ⟨d, rest⟩⟩⟩
  · trivial
  · trivial
  · refine ⟨List.mem_cons_self, fun r => ?_⟩
    cases r with
    | ok v => trivial
    | error err => exact ⟨List.mem_cons_of_mem _ List.mem_cons_self, fun _ => trivial⟩
  · trivial

namespace Evaluator

variable {σ : Type}

section AnyFunctions

variable (ev : Evaluator (Dialogue σ)) (e : Expr) (c : Context) (init : σ)

theorem depth_evalWithin_le (budget : Nat) : (ev.evalWithin budget e c init).depth ≤ budget := by
  induction budget generalizing e c init with
  | zero => exact Nat.le_refl 0
  | succ budget ih =>
      exact Nat.succ_le_succ (Dialogue.depth_metered_le ih (ev.activation e c).run init)

variable {ev e c init} {budget : Nat}

/-- An evaluation that comes to its end does the same with every budget that covers its
    depth. -/
theorem evalWithin_of_depth_le {other : Nat}
    (hresult : (ev.evalWithin budget e c init).result ≠ none)
    (hdepth : (ev.evalWithin budget e c init).depth ≤ other) :
    ev.evalWithin other e c init = ev.evalWithin budget e c init := by
  induction budget generalizing other e c init with
  | zero => exact absurd rfl hresult
  | succ budget ih =>
      -- The activation of the rule itself takes one from either budget.
      cases other with
      | zero => exact absurd hdepth (Nat.not_succ_le_zero _)
      | succ other =>
          have hinner : (ev.activation e c).run.metered (ev.evalWithin other) init =
              (ev.activation e c).run.metered (ev.evalWithin budget) init :=
            Dialogue.metered_congr (fun _ _ _ => ih) hresult (Nat.le_of_succ_le_succ hdepth)
          rw [evalWithin, evalWithin, hinner]

/-- The depth of an evaluation that comes to its end is the least budget with which it
    does. -/
theorem evalWithin_eq_none_iff (hresult : (ev.evalWithin budget e c init).result ≠ none)
    (other : Nat) :
    (ev.evalWithin other e c init).result = none ↔
      other < (ev.evalWithin budget e c init).depth := by
  constructor
  · intro hnone
    by_contra hcovers
    rw [evalWithin_of_depth_le hresult (Nat.le_of_not_lt hcovers)] at hnone
    exact hresult hnone
  · intro hless
    by_contra hother
    -- With the smaller budget it would end as well, and be no deeper than that budget.
    have hbudget := depth_evalWithin_le ev e c init budget
    have hsmall := depth_evalWithin_le ev e c init other
    have hsame : ev.evalWithin budget e c init = ev.evalWithin other e c init :=
      evalWithin_of_depth_le hother (by omega)
    rw [hsame] at hless
    omega

/-- A function that asks for its own call runs out of any budget. -/
theorem evalWithin_own_call {name : String}
    (hown : ev.registry.get? name = some fun _ _ c => (Argument.asked (.call name [])).eval c) :
    ev.evalWithin budget (.call name []) c init = ⟨none, budget, init⟩ := by
  induction budget with
  | zero => rfl
  | succ budget ih =>
      rw [evalWithin, activation, Registry.call, hown]
      simp only [Argument.asked, ExceptT.run_mk, Dialogue.metered, ih]
      rfl

end AnyFunctions

/-- A budget of the height of a rule suffices for its value, if functions ask for their own
    arguments only. -/
theorem evalWithin_completes (s : Semantics (StateM σ))
    {added : List (String × Handler (Dialogue σ))}
    (hadded : ∀ f ∈ added, f.2.AsksOnlyArguments) {budget : Nat} {e : Expr}
    (h : e.height ≤ budget) (c : Context) (init : σ) :
    ((asking s added).evalWithin budget e c init).Completes
      (((suspending s added).eval e c).run.run init) := by
  induction budget generalizing e c init with
  | zero => exact absurd e.height_pos (Nat.not_lt.2 h)
  | succ budget ih =>
      rcases activation_rel s hadded e c with ⟨hasks, hanswered⟩
      rw [← hanswered init]
      -- The questions of an activation are about lower rules, and a smaller budget will do.
      refine hasks.metered_completes (fun child hchild => ?_) init
      have hlower := Expr.height_lt_of_mem_children hchild
      exact fun c s => ih (by omega) c s

/-- With functions that ask for their own arguments only, beside the built-in ones or in
    their place, there are never more activations in progress than rules stand within one
    another. A budget of this height does not run out, and what it gives is the value of
    the rule, at the same depth for all such budgets. The depth is the least budget that
    suffices. Neither the caster nor the functions are restricted in what they do besides. -/
theorem height_bounds_activations (s : Semantics (StateM σ))
    (added : List (String × Handler (Dialogue σ)))
    (hadded : ∀ f ∈ added, f.2.AsksOnlyArguments) (e : Expr) (c : Context) (init : σ) :
    let run := fun budget => (asking s added).evalWithin budget e c init
    let ending := ((suspending s added).eval e c).run.run init
    (∀ budget, (run budget).depth ≤ e.height) ∧
      ∃ depth,
        (∀ budget, e.height ≤ budget → run budget = ⟨some ending.1, depth, ending.2⟩) ∧
          ∀ budget, (run budget).result = none ↔ budget < depth := by
  intro run ending
  rcases evalWithin_completes s hadded (Nat.le_refl e.height) c init with ⟨hresult, hstate⟩
  have hends : (run e.height).result ≠ none := hresult ▸ Option.some_ne_none _
  have hdepth : (run e.height).depth ≤ e.height := depth_evalWithin_le _ e c init e.height
  have hsame : ∀ budget, (run e.height).depth ≤ budget → run budget = run e.height :=
    fun budget => evalWithin_of_depth_le hends
  refine ⟨fun budget => ?_, (run e.height).depth, fun budget hbudget => ?_, fun budget => ?_⟩
  · rcases Nat.lt_or_ge budget (run e.height).depth with hless | hcovers
    · -- Cut off, but no deeper than its budget.
      have hbudget : (run budget).depth ≤ budget := depth_evalWithin_le _ e c init budget
      omega
    · rw [hsame budget hcovers]
      exact hdepth
  · rw [hsame budget (Nat.le_trans hdepth hbudget)]
    exact congrArg₂ (Metered.mk · (run e.height).depth ·) hresult hstate
  · exact evalWithin_eq_none_iff hends budget

/-- `otherwise(name, len("abc"))` is three high and, where the name is unbound, three deep.
    The function goes on after the error of its first argument, and no budget of three or
    more makes a difference to that. A budget of two runs out. -/
theorem height_bounds_activations_otherwise :
    let s : Semantics (StateM Unit) := ⟨Caster.json, .zero⟩
    let added : List (String × Handler (Dialogue Unit)) := [("otherwise", .otherwise)]
    let e : Expr :=
      .call "otherwise" [.variable "name", .call "len" [.literal (.string "abc")]]
    (∀ f ∈ added, f.2.AsksOnlyArguments) ∧ e.height = 3 ∧
      ((suspending s added).eval e .empty).run.run () = (.ok (.int 3), ()) ∧
      (∀ budget, 3 ≤ budget →
        (asking s added).evalWithin budget e .empty () = ⟨some (.ok (.int 3)), 3, ()⟩) ∧
      ((asking s added).evalWithin 2 e .empty ()).result = none := by
  intro s added e
  have hadded : ∀ f ∈ added, f.2.AsksOnlyArguments := fun f hf =>
    List.mem_singleton.1 hf ▸ Handler.otherwise_asksOnlyArguments
  have hthree : (asking s added).evalWithin 3 e .empty () = ⟨some (.ok (.int 3)), 3, ()⟩ := rfl
  rcases height_bounds_activations s added hadded e .empty () with ⟨-, depth, hends, hnone⟩
  -- One evaluation within the budget tells the depth and the value.
  have hheight := hthree.symm.trans (hends 3 (Nat.le_refl 3))
  rw [Metered.mk.injEq, Option.some.injEq] at hheight
  rcases hheight with ⟨hresult, rfl, -⟩
  refine ⟨hadded, rfl, Prod.ext hresult.symm rfl, fun budget hbudget => ?_, ?_⟩
  · rw [hresult]
    exact hends budget hbudget
  · exact (hnone 2).2 (by decide)

end Evaluator

end Criteria
