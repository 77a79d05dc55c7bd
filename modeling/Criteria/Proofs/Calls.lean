import Criteria.Proofs.Correspondence

/-!
# Calls of the Caster

The calls that evaluation makes, in order.

A caster comes from outside, and what it is asked matters beyond what it answers:
it may be expensive, it may not expect every kind of data, and it may answer
wrongly. `Caster.recorded` puts a record of the calls beside whatever the caster
does itself. It changes no result, so what it records are the calls of the plain
evaluation.

The main statement is that each of these calls is a `Requested` one. It needs no
assumption about the caster, which may keep a state, fail, or give any value for
any data: a wrong answer stops at the check that follows every cast and never
becomes the operand of another one. The proof follows no handler. What a
computation keeps true of the record is a relation of the kind that
`Correspondence.eval_rel` is about, with one computation on both sides.

## Main definitions

* `Call`, `Recorder`: A call, and computations that keep a record of calls.
* `Caster.recorded`, `Semantics.recorded`: A caster with a record of its calls.
* `Outcome.runFrom`, `Outcome.calls`: The run of a computation from a state of
  the caster, and the record that it leaves.
* `Outcome.Keeps`: What a computation keeps true of the record.
* `Correspondence.keeps`: The same as a relation between computations.
* `Correspondence.forgetting`: Computations with and without a record.

## Theorems

* `Evaluator.recorded_result`: Recording changes no result.
* `Correspondence.keepsRequested_agrees`: Evaluation puts requested calls on
  record and no others.
* `Evaluator.calls_requested`: So every call is one, with what that means for the
  data and the target.
-/

namespace Criteria

/-- What a caster is called with. -/
abbrev Call : Type :=
  Json × ScalarType

/-- Computations that keep a record of the calls made so far. -/
abbrev Recorder (m : Type → Type) : Type → Type :=
  StateT (List Call) m

/-- A caster that puts every call on record and then does what it did before. -/
def Caster.recorded {m : Type → Type} [Monad m] (caster : Caster m) : Caster (Recorder m) :=
  Caster.traced (fun j target => modify (· ++ [(j, target)]))
    ⟨fun j target => ExceptT.mk (StateT.lift (caster.cast j target).run)⟩

/-- A meaning of operators with the calls of its caster on record. -/
def Semantics.recorded {m : Type → Type} [Monad m] (s : Semantics m) : Semantics (Recorder m) :=
  ⟨s.caster.recorded, s.division⟩

/-- A computation run from a record and from a state of the caster: its result,
    the record after it, and the state after it. -/
def Outcome.runFrom {σ α : Type} (x : Outcome (Recorder (StateM σ)) α) (log : List Call)
    (init : σ) : (Except EvalError α × List Call) × σ :=
  (x.run.run log).run init

/-- The calls that a computation makes of a caster which starts from a state. -/
def Outcome.calls {σ α : Type} (x : Outcome (Recorder (StateM σ)) α) (init : σ) : List Call :=
  (x.runFrom [] init).1.2

/-- Computations after which the record is as one condition says if they succeed,
    and as another says if they fail, provided that it was as the first says
    before. -/
def Outcome.Keeps {σ α : Type} (I : List Call → Prop) (E : EvalError → List Call → Prop)
    (x : Outcome (Recorder (StateM σ)) α) : Prop :=
  ∀ log init, I log →
    (∀ a, (x.runFrom log init).1.1 = .ok a → I (x.runFrom log init).1.2) ∧
    (∀ err, (x.runFrom log init).1.1 = .error err → E err (x.runFrom log init).1.2)

namespace Outcome

variable {σ α β : Type}

theorem runFrom_bind (x : Outcome (Recorder (StateM σ)) α)
    (f : α → Outcome (Recorder (StateM σ)) β) (log : List Call) (init : σ) :
    (x >>= f).runFrom log init = match x.runFrom log init with
      | ((.ok a, log'), s) => (f a).runFrom log' s
      | ((.error err, log'), s) => ((.error err, log'), s) := by
  rcases h : x.runFrom log init with ⟨⟨r, log'⟩, s⟩
  have hrun : (x >>= f).runFrom log init =
      runFrom (ExceptT.mk (ExceptT.bindCont f (x.runFrom log init).1.1)) (x.runFrom log init).1.2
        (x.runFrom log init).2 := rfl
  rw [hrun, h]
  cases r with
  | ok a => rfl
  | error err => rfl

/-- What is to hold of the record in any case is a matter of the record alone. -/
theorem keeps_iff {I : List Call → Prop} {x : Outcome (Recorder (StateM σ)) α} :
    x.Keeps I (fun _ => I) ↔ ∀ log init, I log → I (x.runFrom log init).1.2 := by
  refine forall_congr' fun log => forall_congr' fun init => imp_congr_right fun _ => ?_
  rcases x.runFrom log init with ⟨⟨r, log'⟩, s⟩
  refine ⟨fun h => ?_, fun h => ⟨fun _ _ => h, fun _ _ => h⟩⟩
  cases r with
  | ok a => exact h.1 a rfl
  | error err => exact h.2 err rfl

end Outcome

/-- A call goes to the end of the record, and the caster answers as before. -/
theorem Caster.runFrom_recorded {σ : Type} (caster : Caster (StateM σ)) (j : Json)
    (target : ScalarType) (log : List Call) (init : σ) :
    (caster.recorded.cast j target).runFrom log init =
      ((((caster.cast j target).run.run init).1, log ++ [(j, target)]),
        ((caster.cast j target).run.run init).2) :=
  rfl

namespace Correspondence

variable {σ : Type}

/-- What is kept by the parts of an evaluation is kept by the whole of it. -/
def keeps (I : List Call → Prop) (E : EvalError → List Call → Prop)
    (hthrow : ∀ err log, err.ofOperator = false → I log → E err log) :
    Correspondence (Recorder (StateM σ)) (Recorder (StateM σ)) where
  Rel x _ := x.Keeps I E
  rel_pure _ _ _ hlog := ⟨fun _ _ => hlog, nofun⟩
  rel_throw err herr log _ hlog :=
    ⟨nofun, fun err' heq => Except.error.inj heq ▸ hthrow err log herr hlog⟩
  rel_bind {α β x y f g} hx hf log init hlog := by
    rcases hx log init hlog with ⟨hok, herror⟩
    rw [Outcome.runFrom_bind]
    rcases hrun : x.runFrom log init with ⟨⟨r, log'⟩, s⟩
    rw [hrun] at hok herror
    -- The second computation starts from the record that the first one leaves.
    cases r with
    | ok a => exact hf a log' s (hok a rfl)
    | error err =>
        exact ⟨nofun, fun err' heq => Except.error.inj heq ▸ herror err rfl⟩

/-- Computations that add requested calls to the record and no others. -/
def keepsRequested : Correspondence (Recorder (StateM σ)) (Recorder (StateM σ)) :=
  keeps (fun log => ∀ call ∈ log, Requested call.1 call.2)
    (fun _ log => ∀ call ∈ log, Requested call.1 call.2) fun _ _ _ hlog => hlog

/-- Recorded computations and the same computations without a record. -/
def forgetting : Correspondence (Recorder (StateM σ)) (StateM σ) where
  Rel x y := ∀ log init, ((x.runFrom log init).1.1, (x.runFrom log init).2) = y.run.run init
  rel_pure _ _ _ := rfl
  rel_throw _ _ _ _ := rfl
  rel_bind {α β x y f g} hx hf log init := by
    have hrun : (y >>= g).run.run init =
        StateT.run (ExceptT.bindCont g (y.run.run init).1) (y.run.run init).2 := rfl
    have hfirst := hx log init
    rw [Outcome.runFrom_bind, hrun, ← hfirst]
    rcases x.runFrom log init with ⟨⟨r, log'⟩, s⟩
    cases r with
    | ok a => exact hf a log' s
    | error err => rfl

/-- The record changes neither what a caster answers nor what an operator gives. -/
theorem forgetting_agrees (s : Semantics (StateM σ)) : forgetting.Agrees s.recorded s := by
  refine forgetting.agrees_of_casts (fun j target _ log init => rfl) fun kind op x y a b => ?_
  rw [Semantics.combine_eq, Semantics.combine_eq]
  exact fun log init => rfl

/-- A record stays one of requested calls whatever the caster answers. -/
theorem keepsRequested_agrees (s : Semantics (StateM σ)) :
    keepsRequested.Agrees s.recorded s.recorded := by
  refine keepsRequested.agrees_of_casts (fun j target hcall => ?_) fun kind op x y a b => ?_
  · refine Outcome.keeps_iff.2 fun log init hlog call hmem => ?_
    -- Whatever the caster does, one call is added, and it is the requested one.
    change call ∈ ((s.caster.recorded.cast j target).runFrom log init).1.2 at hmem
    rw [Caster.runFrom_recorded] at hmem
    rcases List.mem_append.1 hmem with hmem | hmem
    · exact hlog call hmem
    · rw [List.mem_singleton.1 hmem]
      exact hcall
  · rw [Semantics.combine_eq]
    exact Outcome.keeps_iff.2 fun log init hlog => hlog

end Correspondence

/-- A run starts from the empty record, so nothing but the computation itself can
    have put a call there. -/
theorem Outcome.requested_of_mem_calls {σ α : Type} {x : Outcome (Recorder (StateM σ)) α}
    (h : Correspondence.keepsRequested.Rel x x) {init : σ} {j : Json} {target : ScalarType}
    (hmem : (j, target) ∈ x.calls init) : Requested j target :=
  Outcome.keeps_iff.1 h [] init (fun _ hnil => absurd hnil List.not_mem_nil) (j, target) hmem

namespace Evaluator

variable {σ : Type}

/-- Recording changes neither results nor what a caster does to its state. -/
theorem recorded_result (s : Semantics (StateM σ)) (e : Expr) (c : Context) (log : List Call)
    (init : σ) :
    ((((withBuiltins s.recorded).eval e c).runFrom log init).1.1,
        (((withBuiltins s.recorded).eval e c).runFrom log init).2) =
      ((withBuiltins s).eval e c).run.run init :=
  Correspondence.forgetting.eval_rel (Correspondence.forgetting_agrees s) e c log init

/-- Every call of the caster while a rule is evaluated, for its value, as a truth
    value or as text, is a requested one. So the data is never null, an array or
    an object, whole numbers in it are signed integers, its value is of another
    type than the target, doubles are not cast to integers, and text is cast to
    truth values only. The caster may do and answer whatever it likes. -/
theorem calls_requested (s : Semantics (StateM σ)) (e : Expr) (c : Context) (init : σ)
    (j : Json) (target : ScalarType)
    (hcall : (j, target) ∈ ((withBuiltins s.recorded).eval e c).calls init ∨
      (j, target) ∈ ((withBuiltins s.recorded).evalBool e c).calls init ∨
      (j, target) ∈ ((withBuiltins s.recorded).evalString e c).calls init) :
    Requested j target ∧
      (j ≠ .null ∧ (∀ items, j ≠ .array items) ∧ (∀ members, j ≠ .object members)) ∧
      (∀ n inRange, j = .number (.int n inRange) → n < 0x8000000000000000) ∧
      (∀ v, Value.ofJson j = .ok v → v.type ≠ target) ∧
      (∀ x finite, j = .number (.float x finite) → target ≠ .int64) ∧
      (∀ text, j = .string text → target = .bool) := by
  have hs := Correspondence.keepsRequested_agrees s
  have hreq : Requested j target := by
    rcases hcall with hcall | hcall | hcall
    · exact Outcome.requested_of_mem_calls (Correspondence.keepsRequested.eval_rel hs e c) hcall
    · exact Outcome.requested_of_mem_calls (Correspondence.keepsRequested.evalBool_rel hs e c) hcall
    · exact Outcome.requested_of_mem_calls (Correspondence.keepsRequested.evalString_rel hs e c)
        hcall
  refine ⟨hreq, ⟨?_, ?_, ?_⟩, hreq.int_lt, hreq.type_ne, ?_, ?_⟩
  · exact hreq.ne_of_ofJson_error _ _ rfl
  · exact fun items => hreq.ne_of_ofJson_error _ _ rfl
  · exact fun members => hreq.ne_of_ofJson_error _ _ rfl
  · rintro x finite rfl
    exact hreq.ne_int64_of_double
  · rintro text rfl
    exact hreq.eq_bool_of_text

/-- In `3 == "3"` the number is cast, and to text, even by a caster that answers
    with a truth value. -/
theorem calls_requested_mixed_equality :
    let s : Semantics (StateM Nat) := ⟨Caster.ofFunction fun _ _ => .ok (.bool true), .zero⟩
    let e : Expr := .binary .equal (.literal (.int 3)) (.literal (.string "3"))
    (Json.number (.ofInt64 3), ScalarType.string) ∈
        ((withBuiltins s.recorded).eval e .empty).calls 0 ∧
      Requested (.number (.ofInt64 3)) .string := by
  intro s e
  have hmem : (Json.number (.ofInt64 3), ScalarType.string) ∈
      ((withBuiltins s.recorded).eval e .empty).calls 0 := List.mem_singleton.2 rfl
  exact ⟨hmem, (calls_requested s e .empty 0 _ _ (Or.inl hmem)).1⟩

end Evaluator

end Criteria
