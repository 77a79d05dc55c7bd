import Criteria.Proofs.Budgets

/-!
# Functions Added to a Registry

Functions added to those that rules can call already, with the whole evaluator at hand.

A rule that was written without a function in mind should not notice that there is one
now. It cannot call what it has no name for, and a name that it does have and that no
function had is an error as soon as the call is reached. So a rule either comes to such an
error or goes the same way as before, to the same value or the same error. What the new
functions do is of no account, since none of them is ever called where the rule comes to an
end without them. They may ask for anything and without end: a budget of the height of the
rule suffices all the same. This holds of the registries that settings ask for, with the
built-in functions or without any.

The error names a call that was not known, unless the caster is to blame. Casters come from
outside, and one that answers a call with this very error ends the rule with it
(`Evaluator.unknownFunction_of_caster`). Nothing else in a rule raises it. To tell the two
apart a caster takes notes of the errors it gives, and the same caster is imagined to give
another error in each of these cases: the two runs agree up to the first note.

## Main definitions

* `Correspondence.completing`: Dialogues that are not cut off and end as computations
  without questions, which may have halted at an unknown function.
* `Evaluator.extending`: The evaluator that settings ask for, with more functions.
* `Caster.noting`: A caster that notes the errors that it gives.
* `Correspondence.noted`: Computations of which the first has noted its error, if it has not
  ended as the second.

## Theorems

* `Dialogue.metered_bind_completes`: Dialogues are cut off one after the other or not at all.
* `Evaluator.activation_completes`: Activations with and without more functions.
* `Evaluator.evalWithin_extending`: Evaluations with and without more functions.
* `Evaluator.unknownFunction_noted`: Where the error for an unknown function comes from.
* `Evaluator.unknownFunction_of_caster`: It may be the caster that has answered with it.
* `Evaluator.added_functions_not_noticed`: A rule is not affected by new functions unless it
  fails for want of one.
-/

namespace Criteria

variable {σ : Type}

/-- An evaluation with something behind it was not cut off itself. -/
theorem Metered.completes_of_andThen {α β : Type} {x : Metered σ α} {rest : α → σ → Metered σ β}
    {last : β × σ} (h : (x.andThen rest).Completes last) :
    ∃ first, x.Completes first ∧ (rest first.1 first.2).Completes last := by
  cases hresult : x.result with
  | none =>
      rw [andThen_of_none hresult] at h
      cases h.1
  | some a =>
      rw [andThen_of_some hresult] at h
      exact ⟨(a, x.state), ⟨hresult, rfl⟩, h⟩

theorem Dialogue.metered_bind_completes {α β : Type}
    {eval : Expr → Context → σ → Metered σ (Except EvalError Value)} {x : Dialogue σ α}
    {f : α → Dialogue σ β} {init : σ} {first : α × σ} {last : β × σ}
    (hx : (x.metered eval init).Completes first)
    (hf : ((f first.1).metered eval first.2).Completes last) :
    ((x >>= f).metered eval init).Completes last := by
  change ((x.bind f).metered eval init).Completes last
  induction x generalizing init with
  | done a =>
      obtain ⟨b, s⟩ := first
      cases hx.1
      cases hx.2
      exact hf
  | act step next ih => exact ih init hx
  | ask e c next ih =>
      rcases Metered.completes_of_andThen hx with ⟨answer, hanswer, hnext⟩
      exact hanswer.andThen (ih answer.1 hnext)

namespace Correspondence

/-- Dialogues that are not cut off and end as computations without questions do, unless
    these have halted at an unknown function. -/
def completing (answers : Expr → Context → σ → Metered σ (Except EvalError Value)) :
    Correspondence (Dialogue σ) (StateM σ) where
  Rel x y := ∀ init, (∃ name, (y.run.run init).1 = .error (.unknownFunction name)) ∨
    (x.run.metered answers init).Completes (y.run.run init)
  rel_pure _ _ := Or.inr ⟨rfl, rfl⟩
  rel_throw _ _ _ := Or.inr ⟨rfl, rfl⟩
  rel_bind {α β x y f g} hx hf init := by
    have hright : (y >>= g).run.run init =
        StateT.run (ExceptT.bindCont g (y.run.run init).1) (y.run.run init).2 := rfl
    rw [hright]
    -- A halt in the first step is one of the whole, and otherwise the first steps agree.
    rcases hx init with ⟨name, hhalt⟩ | hfirst
    · rw [hhalt]
      exact Or.inl ⟨name, rfl⟩
    · refine Or.imp_right (Dialogue.metered_bind_completes hfirst) ?_
      rcases y.run.run init with ⟨r, final⟩
      cases r with
      | ok a => exact hf a final
      | error err => exact Or.inr ⟨rfl, rfl⟩

variable {answers : Expr → Context → σ → Metered σ (Except EvalError Value)}

theorem completing_agrees (s : Semantics (StateM σ)) :
    (completing answers).Agrees s.lifted s := by
  refine (completing answers).agrees_of_casts (fun j target _ => ?_) fun kind op x y a b => ?_
  · exact fun _ => Or.inr ⟨rfl, rfl⟩
  · rw [Semantics.combine_eq, Semantics.combine_eq]
    exact fun _ => Or.inr ⟨rfl, rfl⟩

end Correspondence

namespace Evaluator

section Extending

/-- The evaluator that settings ask for, with more functions. These are given the
    evaluator, so they may ask for anything. -/
def extending (settings : Settings) (caster : Caster (StateM σ))
    (added : List (String × Handler (Dialogue σ))) : Evaluator (Dialogue σ) :=
  let lifted : Semantics (Dialogue σ) := Semantics.lifted ⟨caster, settings.division⟩
  ⟨lifted, (ofSettings settings lifted.caster).registry.registerAll added⟩

variable {s : Semantics (StateM σ)} {r : Registry (StateM σ)} {r' : Registry (Dialogue σ)}
  (hknown : ∀ name h, r.get? name = some h →
    r.get? name = Registry.builtins.get? name ∧ r'.get? name = Registry.builtins.get? name)

include hknown

/-- Where a registry has built-in functions only and another has the same under their names,
    activations with either go the same way, or the rule has halted at an unknown function,
    if that can be said of what they ask for. -/
theorem activation_completes {answers : Expr → Context → σ → Metered σ (Except EvalError Value)}
    {e : Expr}
    (hchildren : ∀ child ∈ e.children, ∀ c, (Correspondence.completing answers).Rel
      ((Argument.asked child).eval c) (eval ⟨s, r⟩ child c)) (c : Context) :
    (Correspondence.completing answers).Rel (activation ⟨s.lifted, r'⟩ e c)
      (eval ⟨s, r⟩ e c) := by
  cases e using Expr.induct with
  | literal v =>
      rw [eval_literal]
      exact Correspondence.rel_pure _ v
  | reference name =>
      rw [eval_variable]
      exact fun _ => Or.inr ⟨rfl, rfl⟩
  | binary op left right _ _ =>
      rw [eval_binary]
      have hleft := hchildren left List.mem_cons_self c
      have hright := hchildren right (List.mem_cons_of_mem _ List.mem_cons_self) c
      exact Correspondence.rel_bind _ hleft fun x => Correspondence.rel_bind _ hright fun y =>
        (Correspondence.completing_agrees s).apply op x y
  | call function args _ =>
      rw [eval_call]
      cases hget : r.get? function with
      -- The rule halts here, whatever the other registry has.
      | none =>
          refine fun init => Or.inl ⟨function, ?_⟩
          rw [Registry.call, hget]
          rfl
      | some h =>
          rcases hknown function h hget with ⟨hplain, hextended⟩
          refine Correspondence.call_rel_of_get? _ ?_
          rw [hplain, hextended]
          refine Correspondence.get?_builtins_rel _ (Correspondence.completing_agrees s) ?_ function
          refine List.forall₂_map_left_iff.2 (List.forall₂_map_right_iff.2 ?_)
          exact List.forall₂_same.2 fun a ha => hchildren a ha c

/-- Evaluations with either registry go the same way, or the rule has halted at an unknown
    function. A budget of the height of the rule suffices for that. -/
theorem evalWithin_extending {budget : Nat} {e : Expr} (h : e.height ≤ budget) (c : Context)
    (init : σ) :
    (∃ name, ((eval ⟨s, r⟩ e c).run.run init).1 = .error (.unknownFunction name)) ∨
      (evalWithin ⟨s.lifted, r'⟩ budget e c init).Completes
        ((eval ⟨s, r⟩ e c).run.run init) := by
  induction budget generalizing e c init with
  | zero => exact absurd e.height_pos (Nat.not_lt.2 h)
  | succ budget ih =>
      -- The questions that matter are about lower rules, and a smaller budget will do.
      refine @activation_completes σ s r r' hknown (evalWithin ⟨s.lifted, r'⟩ budget) e
        (fun child hchild c init => ?_) c init
      have hlower := Expr.height_lt_of_mem_children hchild
      exact (ih (by omega) c init).imp_right fun hends => hends.andThen ⟨rfl, rfl⟩

end Extending

/-- The functions that settings ask for are built in, and more functions under other names do
    not change what their names stand for. -/
theorem get?_extending {settings : Settings} {caster : Caster (StateM σ)}
    {added : List (String × Handler (Dialogue σ))}
    (hadded : ∀ f ∈ added, (ofSettings settings caster).registry.contains f.1 = false)
    (name : String) (h : Handler (StateM σ))
    (hget : (ofSettings settings caster).registry.get? name = some h) :
    (ofSettings settings caster).registry.get? name = Registry.builtins.get? name ∧
      (extending settings caster added).registry.get? name = Registry.builtins.get? name := by
  have hother : ∀ f ∈ added, f.1 ≠ name := by
    rintro f hf rfl
    have hcontains : (ofSettings settings caster).registry.contains f.1 = true := by
      rw [Registry.contains, Bindings.contains, ← Registry.get?, hget, Option.isSome_some]
    rw [hadded f hf] at hcontains
    cases hcontains
  obtain ⟨division, builtins⟩ := settings
  cases builtins with
  | false => cases hget
  | true => exact ⟨rfl, Registry.get?_registerAll hother _⟩

end Evaluator

section Notes

namespace Caster

/-- A caster that notes the errors that it gives, the last one first. -/
def noting (caster : Caster (StateM σ)) : Caster (StateM (σ × List EvalError)) where
  cast j target := ExceptT.mk fun state =>
    match (caster.cast j target).run.run state.1 with
    | (.ok v, s) => (.ok v, s, state.2)
    | (.error err, s) => (.error err, s, err :: state.2)

/-- The same caster, giving another error in place of each that it gives. -/
def excused (caster : Caster (StateM σ)) : Caster (StateM σ) where
  cast j target := ExceptT.mk fun state =>
    match (caster.cast j target).run.run state with
    | (.ok v, s) => (.ok v, s)
    | (.error _, s) => (.error .divisionByZero, s)

theorem excused_ne_unknownFunction (caster : Caster (StateM σ)) (j : Json) (target : ScalarType)
    (state : σ) (name : String) :
    ((caster.excused.cast j target).run.run state).1 ≠ .error (.unknownFunction name) := by
  have hrun : (caster.excused.cast j target).run.run state =
      match (caster.cast j target).run.run state with
      | (.ok v, s) => (.ok v, s)
      | (.error _, s) => (.error .divisionByZero, s) := rfl
  rw [hrun]
  rcases (caster.cast j target).run.run state with ⟨_ | _, _⟩
  · exact nofun
  · exact nofun

end Caster

namespace Correspondence

/-- Computations of which the second goes without the notes that the first keeps. -/
def unnoted (σ : Type) : Correspondence (StateM (σ × List EvalError)) (StateM σ) where
  Rel x y := ∀ init, (x.run.run init).1 = (y.run.run init.1).1 ∧
    (x.run.run init).2.1 = (y.run.run init.1).2
  rel_pure _ _ := ⟨rfl, rfl⟩
  rel_throw _ _ _ := ⟨rfl, rfl⟩
  rel_bind {α β x y f g} hx hf init := by
    have hleft : (x >>= f).run.run init =
        StateT.run (ExceptT.bindCont f (x.run.run init).1) (x.run.run init).2 := rfl
    have hright : (y >>= g).run.run init.1 =
        StateT.run (ExceptT.bindCont g (y.run.run init.1).1) (y.run.run init.1).2 := rfl
    rcases hx init with ⟨hresult, hstate⟩
    rw [hleft, hright, ← hresult, ← hstate]
    rcases x.run.run init with ⟨r, final⟩
    cases r with
    | ok a => exact hf a final
    | error err => exact ⟨rfl, rfl⟩

/-- Computations of which the first ends with the result of the second, or with an error that
    it has noted. -/
def noted (σ : Type) : Correspondence (StateM (σ × List EvalError)) (StateM σ) where
  Rel x y := ∀ init, ((x.run.run init).1 = (y.run.run init.1).1 ∧
      (x.run.run init).2.1 = (y.run.run init.1).2) ∨
    ∃ err ∈ (x.run.run init).2.2, (x.run.run init).1 = .error err
  rel_pure _ _ := Or.inl ⟨rfl, rfl⟩
  rel_throw _ _ _ := Or.inl ⟨rfl, rfl⟩
  rel_bind {α β x y f g} hx hf init := by
    have hleft : (x >>= f).run.run init =
        StateT.run (ExceptT.bindCont f (x.run.run init).1) (x.run.run init).2 := rfl
    have hright : (y >>= g).run.run init.1 =
        StateT.run (ExceptT.bindCont g (y.run.run init.1).1) (y.run.run init.1).2 := rfl
    rcases hx init with ⟨hresult, hstate⟩ | ⟨err, hnote, hresult⟩
    · rw [hleft, hright, ← hresult, ← hstate]
      rcases x.run.run init with ⟨r, final⟩
      cases r with
      | ok a => exact hf a final
      | error err => exact Or.inl ⟨rfl, rfl⟩
    -- An error that was noted ends the whole.
    · rw [hleft, hresult]
      exact Or.inr ⟨err, hnote, rfl⟩

variable (caster : Caster (StateM σ)) (division : DivisionPolicy)

theorem unnoted_agrees : (unnoted σ).Agrees ⟨caster.noting, division⟩ ⟨caster, division⟩ := by
  refine (unnoted σ).agrees_of_casts (fun j target _ init => ?_) fun kind op x y a b => ?_
  · have hrun : (caster.noting.cast j target).run.run init =
        match (caster.cast j target).run.run init.1 with
        | (.ok v, s) => (.ok v, s, init.2)
        | (.error err, s) => (.error err, s, err :: init.2) := rfl
    dsimp only
    rw [hrun]
    rcases (caster.cast j target).run.run init.1 with ⟨_ | _, _⟩
    · exact ⟨rfl, rfl⟩
    · exact ⟨rfl, rfl⟩
  · rw [Semantics.combine_eq, Semantics.combine_eq]
    exact fun _ => ⟨rfl, rfl⟩

theorem noted_agrees : (noted σ).Agrees ⟨caster.noting, division⟩ ⟨caster.excused, division⟩ := by
  refine (noted σ).agrees_of_casts (fun j target _ init => ?_) fun kind op x y a b => ?_
  · have hleft : (caster.noting.cast j target).run.run init =
        match (caster.cast j target).run.run init.1 with
        | (.ok v, s) => (.ok v, s, init.2)
        | (.error err, s) => (.error err, s, err :: init.2) := rfl
    have hright : (caster.excused.cast j target).run.run init.1 =
        match (caster.cast j target).run.run init.1 with
        | (.ok v, s) => (.ok v, s)
        | (.error _, s) => (.error .divisionByZero, s) := rfl
    dsimp only
    rw [hleft, hright]
    rcases (caster.cast j target).run.run init.1 with ⟨_ | _, _⟩
    · exact Or.inr ⟨_, List.mem_cons_self, rfl⟩
    · exact Or.inl ⟨rfl, rfl⟩
  · rw [Semantics.combine_eq, Semantics.combine_eq]
    exact fun _ => Or.inl ⟨rfl, rfl⟩

/-- Evaluations with what settings ask for correspond if the casters do. -/
theorem eval_rel_ofSettings {m n : Type → Type} [Monad m] [Monad n] (R : Correspondence m n)
    (settings : Settings) {caster : Caster m} {caster' : Caster n}
    (hs : R.Agrees ⟨caster, settings.division⟩ ⟨caster', settings.division⟩) (e : Expr)
    (c : Context) :
    R.Rel ((Evaluator.ofSettings settings caster).eval e c)
      ((Evaluator.ofSettings settings caster').eval e c) := by
  obtain ⟨division, builtins⟩ := settings
  cases builtins with
  | true => exact R.eval_rel hs e c
  | false =>
      induction e using Expr.induct with
      | literal v =>
          rw [Evaluator.eval_literal, Evaluator.eval_literal]
          exact R.rel_pure v
      | reference name => exact R.variable_rel _ _ name rfl
      | binary op left right hleft hright => exact R.binary_rel hs op hleft hright
      -- No function is known on either side.
      | call function args _ =>
          rw [Evaluator.eval_call, Evaluator.eval_call]
          exact R.rel_throw _ rfl

end Correspondence

namespace Evaluator

variable {settings : Settings} {caster : Caster (StateM σ)} {e : Expr} {c : Context} {init : σ}

/-- Where a rule ends with the error for an unknown function, the rule has a call of a
    function that is not in the registry, or the caster has given the error on the way. -/
theorem unknownFunction_noted {name : String}
    (h : (((ofSettings settings caster).eval e c).run.run init).1 =
      .error (.unknownFunction name)) :
    ((∃ args, .call name args ∈ e.parts) ∧
        (ofSettings settings caster).registry.contains name = false) ∨
      .unknownFunction name ∈
        (((ofSettings settings caster.noting).eval e c).run.run (init, [])).2.2 := by
  have hplain := (Correspondence.unnoted σ).eval_rel_ofSettings settings
    (Correspondence.unnoted_agrees caster settings.division) e c (init, [])
  have hnoted := (Correspondence.noted σ).eval_rel_ofSettings settings
    (Correspondence.noted_agrees caster settings.division) e c (init, [])
  rw [hplain.1, h] at hnoted
  rcases hnoted with ⟨hexcused, -⟩ | ⟨err, hnote, herr⟩
  · have hend := (Outcome.mayEnd_iff_exists_state _ _).2 ⟨init, hexcused.symm⟩
    rcases unknownFunction_cause mem_all_of_ofSettings e hend with hcall | ⟨j, target, hcast⟩
    · obtain ⟨division, builtins⟩ := settings
      cases builtins <;> exact Or.inl hcall
    · rcases (Outcome.mayEnd_iff_exists_state _ _).1 hcast with ⟨state, hcast⟩
      exact absurd hcast (caster.excused_ne_unknownFunction j target state name)
  · cases herr
    exact Or.inr hnote

/-- The caster has answered with this error, and the rule has no call of such a name. -/
theorem unknownFunction_of_caster :
    let caster : Caster (StateM Unit) := .ofFunction fun _ _ => .error (.unknownFunction "zzz")
    let e : Expr := .call "not" [.literal (.int 1)]
    (((ofSettings {} caster).eval e .empty).run.run ()).1 = .error (.unknownFunction "zzz") ∧
      ¬∃ args, .call "zzz" args ∈ e.parts := by
  intro caster e
  refine ⟨rfl, ?_⟩
  rintro ⟨args, hmem⟩
  have hparts : e.parts = [e, .literal (.int 1)] := rfl
  rw [hparts] at hmem
  simp [e] at hmem

end Evaluator

end Notes

namespace Evaluator

/-- Functions added to those that settings ask for, under names that had none, are not
    noticed by a rule, whatever they do and whatever they ask for. Its result is the same,
    and so is what becomes of the caster, unless it failed for want of a function. Then the
    error names a function that is called in the rule and was not there, or else the caster
    has answered with it on the way. The built-in functions themselves are not noticed
    either by a rule that gets by without any. -/
theorem added_functions_not_noticed (settings : Settings) (caster : Caster (StateM σ))
    (added : List (String × Handler (Dialogue σ)))
    (hadded : ∀ f ∈ added, (ofSettings settings caster).registry.contains f.1 = false)
    (e : Expr) (c : Context) (init : σ) :
    let ev := ofSettings settings caster
    let plain := (ev.eval e c).run.run init
    let bare := ((ofSettings ⟨settings.division, false⟩ caster).eval e c).run.run init
    let full := ((ofSettings ⟨settings.division, true⟩ caster).eval e c).run.run init
    ((∀ name, plain.1 ≠ .error (.unknownFunction name)) → ∀ budget, e.height ≤ budget →
      ((extending settings caster added).evalWithin budget e c init).Completes plain) ∧
    (∀ name, plain.1 = .error (.unknownFunction name) →
      ((∃ args, .call name args ∈ e.parts) ∧ ev.registry.contains name = false) ∨
        .unknownFunction name ∈
          (((ofSettings settings caster.noting).eval e c).run.run (init, [])).2.2) ∧
    ((∀ name, bare.1 ≠ .error (.unknownFunction name)) → full = bare) := by
  intro ev plain bare full
  refine ⟨fun hresult budget hbudget => ?_, fun name => unknownFunction_noted, fun hresult => ?_⟩
  · rcases evalWithin_extending (get?_extending hadded) hbudget c init with ⟨name, hhalt⟩ | hends
    · exact absurd hhalt (hresult name)
    · exact hends
  · exact eval_extended mem_all_of_ofSettings (extends_builtins settings.division caster false)
      hresult

/-- A function that asks for its own call never comes to an end. `or(true, shout())` is true
    with it and without it, and `not(shout())` fails for want of it. -/
theorem added_functions_not_noticed_shout :
    let shout : Handler (Dialogue Unit) := fun _ _ c => (Argument.asked (.call "shout" [])).eval c
    let ev : Evaluator (StateM Unit) := ofSettings {} Caster.json
    let called : Expr := .call "shout" []
    ev.registry.contains "shout" = false ∧
      (∀ budget, 2 ≤ budget → ((extending {} Caster.json [("shout", shout)]).evalWithin budget
        (.call "or" [.literal (.bool true), called]) .empty ()).result =
          some (.ok (.bool true))) ∧
      ((ev.eval (.call "not" [called]) .empty).run.run ()).1 = .error (.unknownFunction "shout") ∧
      ∃ args, .call "shout" args ∈ Expr.parts (.call "not" [called]) := by
  intro shout ev called
  have hnew : ev.registry.contains "shout" = false := rfl
  have hadded : ∀ f ∈ [("shout", shout)], ev.registry.contains f.1 = false := by
    intro f hf
    rw [List.mem_singleton.1 hf, hnew]
  have hlazy : (ev.eval (.call "or" [.literal (.bool true), called]) .empty).run.run () =
      (.ok (.bool true), ()) := rfl
  have hfail : ((ev.eval (.call "not" [called]) .empty).run.run ()).1 =
      .error (.unknownFunction "shout") := rfl
  refine ⟨hnew, fun budget hbudget => ?_, hfail, ?_⟩
  · have hsame := (added_functions_not_noticed {} Caster.json _ hadded
      (.call "or" [.literal (.bool true), called]) .empty ()).1
    have hknown : ∀ name, ((ev.eval (.call "or" [.literal (.bool true), called])
        .empty).run.run ()).1 ≠ .error (.unknownFunction name) := by
      intro name
      rw [hlazy]
      exact nofun
    have hheight : Expr.height (.call "or" [.literal (.bool true), called]) = 2 := by decide
    have hends := (hsame hknown budget (by omega)).1
    rw [hends]
    exact congrArg (fun ending => some ending.1) hlazy
  · have hcause := (added_functions_not_noticed {} Caster.json _ hadded
      (.call "not" [called]) .empty ()).2.1 "shout" hfail
    -- The caster for JSON data is not asked at all.
    have hnotes : (((ofSettings {} (Caster.noting Caster.json)).eval (.call "not" [called])
        .empty).run.run ((), [])).2.2 = [] := rfl
    rcases hcause with hcall | hnote
    · exact hcall.1
    · rw [hnotes] at hnote
      cases hnote

end Evaluator

end Criteria
