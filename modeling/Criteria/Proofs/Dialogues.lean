import Criteria.Dialogue
import Criteria.Proofs.Extension

/-!
# Dialogues

Functions that are given the whole evaluator, and those that do not make use of it.

A dialogue may ask for the value of any rule in any context, and it goes on with what it is
told. It is a tree without infinite branches, which is to say that a function comes to an
end if all its questions are answered. Whether they are is another matter, as a function
may ask for its own call.

An activation of the evaluator looks at the root of a rule and asks for the rest. If every
function asks for its own arguments only, then an activation asks for the children of its
rule only, and evaluation answers all that it asks: the answers put together are the value
of the rule. So a function of this kind may as well be given suspended arguments, and
nothing is lost by handlers that are.

Both facts come from one relation between dialogues and computations without questions.
The built-in functions are the same definitions in every monad, so they are in relation
to themselves.

## Main definitions

* `Dialogue.answered`: What comes of a dialogue when an evaluation answers.
* `Dialogue.AsksOnly`: It asks about no other expressions than these.
* `Handler.AsksOnlyArguments`: A function asks for its own arguments only.
* `Handler.suspended`: The same function, given suspended arguments.
* `Correspondence.answering`: Dialogues and what comes of them.
* `Expr.children`: The rules that a rule is put together from.

## Theorems

* `Builtin.asksOnlyArguments`: The built-in functions ask for their arguments only.
* `Handler.AsksOnlyArguments.suspended_rel`: A function that does can be given these
  suspended.
* `Registry.get?_registerAll_rel`: Registries set up in the same way correspond.
* `Evaluator.activation_rel`: An activation asks for the children of its rule, and its
  answers make the value of the rule.
-/

namespace Criteria

namespace Dialogue

variable {σ α β : Type}

/-- The result of a dialogue and the state after it, if an evaluation answers. -/
def answered (eval : Expr → Context → Outcome (StateM σ) Value) : Dialogue σ α → σ → α × σ
  | .done a, s => (a, s)
  | .act step next, s => (next s).answered eval (step s)
  | .ask e c next, s =>
    (next ((eval e c).run.run s).1).answered eval ((eval e c).run.run s).2

/-- Whether a dialogue asks about no other expressions than these, whatever it is told and
    whatever the state is. -/
def AsksOnly (es : List Expr) : Dialogue σ α → Prop
  | .done _ => True
  | .act _ next => ∀ s, (next s).AsksOnly es
  | .ask e _ next => e ∈ es ∧ ∀ r, (next r).AsksOnly es

theorem answered_bind (eval : Expr → Context → Outcome (StateM σ) Value) (x : Dialogue σ α)
    (f : α → Dialogue σ β) (init : σ) :
    (x >>= f).answered eval init =
      (f (x.answered eval init).1).answered eval (x.answered eval init).2 := by
  change (x.bind f).answered eval init = _
  induction x generalizing init with
  | done a => rfl
  | act step next ih => exact ih init (step init)
  | ask e c next ih => exact ih _ _

theorem AsksOnly.bind {es : List Expr} {x : Dialogue σ α} {f : α → Dialogue σ β}
    (hx : x.AsksOnly es) (hf : ∀ a, (f a).AsksOnly es) : (x >>= f).AsksOnly es := by
  change (x.bind f).AsksOnly es
  induction x with
  | done a => exact hf a
  | act step next ih => exact fun s => ih s (hx s)
  | ask e c next ih => exact ⟨hx.1, fun r => ih r (hx.2 r)⟩

/-- Answers to questions that are not asked do not matter. -/
theorem AsksOnly.answered_congr {es : List Expr} {x : Dialogue σ α} (hx : x.AsksOnly es)
    {eval eval' : Expr → Context → Outcome (StateM σ) Value}
    (heval : ∀ e ∈ es, eval e = eval' e) (init : σ) :
    x.answered eval init = x.answered eval' init := by
  induction x generalizing init with
  | done a => rfl
  | act step next ih => exact ih init (hx init) (step init)
  | ask e c next ih =>
      rw [answered, answered, heval e hx.1]
      exact ih _ (hx.2 _) _

end Dialogue

variable {σ : Type}

namespace Argument

/-- An argument as a suspended evaluation. -/
def suspended {m : Type → Type} (eval : Expr → Context → Outcome m Value) (e : Expr) :
    Argument m :=
  ⟨e, eval e⟩

open Classical in
/-- The evaluation of an expression that is one of these arguments. -/
noncomputable def evalAmong {m : Type → Type} [Monad m] (arguments : List (Argument m))
    (e : Expr) : Context → Outcome m Value :=
  if h : ∃ a ∈ arguments, a.expr = e then h.choose.eval else fun _ => pure default

theorem evalAmong_suspended {m : Type → Type} [Monad m]
    (eval : Expr → Context → Outcome m Value) {args : List Expr} {e : Expr} (h : e ∈ args) :
    evalAmong (args.map (suspended eval)) e = eval e := by
  have hexists : ∃ a ∈ args.map (suspended eval), a.expr = e :=
    ⟨suspended eval e, List.mem_map_of_mem h, rfl⟩
  rcases hexists.choose_spec with ⟨hmem, hexpr⟩
  rcases List.mem_map.1 hmem with ⟨e', _, heq⟩
  have hsame : e' = e := (congrArg Argument.expr heq).trans hexpr
  rw [evalAmong, dif_pos hexists]
  exact (congrArg Argument.eval heq.symm).trans (congrArg eval hsame)

end Argument

namespace Correspondence

/-- Dialogues that ask about these expressions only, and computations that do the same
    without questions if an evaluation answers them. -/
def answering (es : List Expr) (eval : Expr → Context → Outcome (StateM σ) Value) :
    Correspondence (Dialogue σ) (StateM σ) where
  Rel x y := x.run.AsksOnly es ∧ ∀ init, x.run.answered eval init = y.run.run init
  rel_pure _ := ⟨trivial, fun _ => rfl⟩
  rel_throw _ _ := ⟨trivial, fun _ => rfl⟩
  rel_bind {α β x y f g} hx hf := by
    refine ⟨hx.1.bind fun r => ?_, fun init => ?_⟩
    · cases r with
      | ok a => exact (hf a).1
      | error err => trivial
    · have hright : (y >>= g).run.run init =
          StateT.run (ExceptT.bindCont g (y.run.run init).1) (y.run.run init).2 := rfl
      have hleft : (x >>= f).run.answered eval init =
          (ExceptT.bindCont f (x.run.answered eval init).1).answered eval
            (x.run.answered eval init).2 :=
        Dialogue.answered_bind eval x.run (ExceptT.bindCont f) init
      rw [hright, hleft, hx.2 init]
      rcases y.run.run init with ⟨r, final⟩
      cases r with
      | ok a => exact (hf a).2 final
      | error err => rfl

variable {es : List Expr} {eval : Expr → Context → Outcome (StateM σ) Value}

/-- Casts and operators do not ask. -/
theorem answering_agrees (s : Semantics (StateM σ)) :
    (answering es eval).Agrees s.lifted s := by
  refine (answering es eval).agrees_of_casts (fun j target _ => ?_) fun kind op x y a b => ?_
  · exact ⟨fun _ => trivial, fun _ => rfl⟩
  · rw [Semantics.combine_eq, Semantics.combine_eq]
    exact ⟨trivial, fun _ => rfl⟩

theorem asked_rel {e : Expr} (h : e ∈ es) (c : Context) :
    (answering es eval).Rel ((Argument.asked e).eval c) (eval e c) :=
  ⟨⟨h, fun _ => trivial⟩, fun _ => rfl⟩

/-- The arguments of a call as questions and as suspended evaluations. -/
theorem asked_rel_arguments (args : List Expr) (c : Context) :
    List.Forall₂ (fun a b => (answering args eval).Rel (a.eval c) (b.eval c))
      (args.map Argument.asked) (args.map (Argument.suspended eval)) :=
  List.forall₂_map_left_iff.2 <| List.forall₂_map_right_iff.2 <|
    List.forall₂_same.2 fun _ h => asked_rel h c

end Correspondence

namespace Handler

/-- Whether a function that is given the evaluator asks for its own arguments only. -/
def AsksOnlyArguments (h : Handler (Dialogue σ)) : Prop :=
  ∀ (s : Semantics (StateM σ)) (args : List Expr) (c : Context),
    (h s.lifted (args.map .asked) c).run.AsksOnly args

/-- A function that is given the evaluator as one that is given suspended arguments. They
    answer its questions. -/
noncomputable def suspended (h : Handler (Dialogue σ)) : Handler (StateM σ) :=
  fun s arguments c => ExceptT.mk <| modifyGet <|
    (h s.lifted (arguments.map fun a => .asked a.expr) c).run.answered
      (Argument.evalAmong arguments)

/-- For a function that asks for its own arguments only there is no difference. -/
theorem AsksOnlyArguments.suspended_rel {h : Handler (Dialogue σ)} (hasks : h.AsksOnlyArguments)
    (s : Semantics (StateM σ)) (eval : Expr → Context → Outcome (StateM σ) Value)
    (args : List Expr) (c : Context) :
    (Correspondence.answering args eval).Rel (h s.lifted (args.map .asked) c)
      (h.suspended s (args.map (Argument.suspended eval)) c) := by
  have hquestions : (args.map (Argument.suspended eval)).map (fun a => .asked a.expr) =
      args.map (.asked : Expr → Argument (Dialogue σ)) := List.map_map
  refine ⟨hasks s args c, fun init => ?_⟩
  calc (h s.lifted (args.map .asked) c).run.answered eval init
    _ = (h s.lifted (args.map .asked) c).run.answered
          (Argument.evalAmong (args.map (Argument.suspended eval))) init :=
        (hasks s args c).answered_congr
          (fun e he => (Argument.evalAmong_suspended eval he).symm) init
    _ = (h.suspended s (args.map (Argument.suspended eval)) c).run.run init := by
        rw [suspended, hquestions]
        rfl

end Handler

/-- The built-in functions ask for their own arguments only. -/
theorem Builtin.asksOnlyArguments {function : String} {handler : Handler (Dialogue σ)}
    (hmem : (function, handler) ∈ Builtin.all) : handler.AsksOnlyArguments := by
  intro s args c
  -- What the answers are makes no difference to the questions.
  let eval : Expr → Context → Outcome (StateM σ) Value := fun _ _ => pure default
  have hall := (Correspondence.answering args eval).all_rel (Correspondence.answering_agrees s)
    (Correspondence.asked_rel_arguments args c)
  rcases List.mem_iff_get.1 hmem with ⟨i, hi⟩
  have hrel := (hall.get i.isLt (Nat.lt_of_lt_of_eq i.isLt hall.length_eq)).2.1
  rw [Fin.eta, hi] at hrel
  exact hrel

/-- Registries correspond if they are set up from registries that do, with functions that do. -/
theorem Registry.get?_registerAll_rel {m n : Type → Type} {P : Handler m → Handler n → Prop}
    {added : List (String × Handler m)} {added' : List (String × Handler n)}
    (hadded : List.Forall₂ (fun f g => f.1 = g.1 ∧ P f.2 g.2) added added') {r : Registry m}
    {r' : Registry n} {name : String} (h : Option.Rel P (r.get? name) (r'.get? name)) :
    Option.Rel P ((r.registerAll added).get? name) ((r'.registerAll added').get? name) := by
  induction hadded generalizing r r' with
  | nil => exact h
  | @cons f g _ _ hhead _ ih =>
      refine @ih (r.register f.1 f.2) (r'.register g.1 g.2) ?_
      rw [get?_register, get?_register, ← hhead.1]
      split
      · exact .some hhead.2
      · exact h

/-- The rules that a rule is put together from. -/
def Expr.children : Expr → List Expr
  | .literal _ => []
  | .variable _ => []
  | .binary _ left right => [left, right]
  | .call _ args => args

namespace Evaluator

/-- The evaluator with the built-in functions and others, all of them given the evaluator. -/
def asking (s : Semantics (StateM σ)) (added : List (String × Handler (Dialogue σ))) :
    Evaluator (Dialogue σ) :=
  ⟨s.lifted, Registry.builtins.registerAll added⟩

/-- The evaluator with the same functions, all of them given suspended arguments. -/
noncomputable def suspending (s : Semantics (StateM σ))
    (added : List (String × Handler (Dialogue σ))) : Evaluator (StateM σ) :=
  ⟨s, Registry.builtins.registerAll (added.map fun f => (f.1, f.2.suspended))⟩

-- Without others it is the evaluator of rules.
example (s : Semantics (StateM σ)) : suspending s [] = withBuiltins s := rfl

/-- If functions ask for their own arguments only, then an activation asks for the children
    of its rule only, and answered with their values it gives the value of the rule. -/
theorem activation_rel (s : Semantics (StateM σ)) {added : List (String × Handler (Dialogue σ))}
    (hadded : ∀ f ∈ added, f.2.AsksOnlyArguments) (e : Expr) (c : Context) :
    (Correspondence.answering e.children (suspending s added).eval).Rel
      ((asking s added).activation e c) ((suspending s added).eval e c) := by
  cases e using Expr.induct with
  | literal v =>
      rw [eval_literal]
      exact Correspondence.rel_pure _ v
  | reference name =>
      rw [eval_variable]
      exact ⟨trivial, fun _ => rfl⟩
  | binary op left right _ _ =>
      have hleft : left ∈ [left, right] := List.mem_cons_self
      have hright : right ∈ [left, right] := List.mem_cons_of_mem _ List.mem_cons_self
      rw [eval_binary]
      exact Correspondence.rel_bind _ (Correspondence.asked_rel hleft c) fun x =>
        Correspondence.rel_bind _ (Correspondence.asked_rel hright c) fun y =>
          (Correspondence.answering_agrees s).apply op x y
  | call function args _ =>
      rw [eval_call]
      -- The functions found on the two sides are built in, or one is the other suspended.
      refine Correspondence.call_rel_of_get? _ (Registry.get?_registerAll_rel ?_ ?_)
      · exact List.forall₂_map_right_iff.2 <| List.forall₂_same.2 fun f hf =>
          ⟨rfl, (hadded f hf).suspended_rel s _ args c⟩
      · exact Correspondence.get?_builtins_rel _ (Correspondence.answering_agrees s)
          (Correspondence.asked_rel_arguments args c) function

end Evaluator

end Criteria
