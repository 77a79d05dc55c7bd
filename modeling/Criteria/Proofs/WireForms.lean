import Criteria.Proofs.DataText
import Criteria.Wire.Expr

/-!
# Forms of Rules

What is read of a document that has the form of a rule.

Forms are read with a number of brackets that may still be opened. That number is
the measure by which reading ends, so every form is read in less room than it stands
in. Where there is room for all brackets of a document, more of it makes no
difference, and then what is read of a form depends on its parts alone.

## Theorems

* `Wire.nesting_lt_of_fields?`: Fields are nested less deep than their record.
* `Expr.ofDocument?_of_nesting_le`: More room than there are brackets makes no difference.
* `Expr.ofDocument?_variable` and others: What is read of each form.
* `Expr.ofDocument?_deep`: Nothing is read of a rule in less room.
-/

namespace Criteria

open Json (Document)

namespace Value

/-- The contents of a literal open no brackets. -/
theorem nesting_scalar (v : Value) : v.scalar.nesting = 0 := by
  cases v with
  | float x =>
      by_cases hfinite : x.isFinite = true
      · rw [scalar, toJson_float x hfinite]
        rfl
      · rw [scalar, toJson_infinite x (Bool.eq_false_iff.2 hfinite)]
        rfl
  | int n | string s | bool b => rfl

end Value

namespace Wire

/-- An alternative opens one bracket around its contents. -/
theorem nesting_tagged (name : String) (contents : Document) :
    (tagged name contents).nesting = contents.nesting + 1 := by
  rw [tagged, Document.nesting, Document.memberNesting, Document.memberNesting, Nat.max_zero,
    Nat.add_comm]

theorem eq_tagged_of_alternative? {d contents : Document} {name : String}
    (h : alternative? d = some (name, contents)) : d = tagged name contents := by
  unfold alternative? at h
  split at h
  · rw [Option.some.inj h, tagged]
  · cases h

/-- A bare name is read as in less room, if there is room for its brackets. -/
theorem bareName?_succ {d : Document} {room : Nat} (h : d.nesting ≤ room) :
    bareName? (room + 1) d = bareName? room d := by
  cases d with
  | null | bool b | number n | string s | array items | void => cases room <;> rfl
  | object members =>
      cases room with
      | zero =>
          rw [Document.nesting] at h
          omega
      | succ room => rcases members with _ | ⟨⟨name, _ | _ | _ | _ | _ | _ | _⟩, _ | _⟩ <;> rfl

/-- The contents of a field stand in a member. -/
theorem mem_of_field? {members : List (String × Document)} {name : String} {x : Document}
    (h : field? members name = some (some x)) : ∃ m ∈ members, m.2 = x := by
  unfold field? at h
  split at h
  · cases h
  · next member hmember =>
      have hmem : member ∈ members.filter fun m => m.1 == name := by
        rw [hmember]
        exact List.mem_singleton_self member
      exact ⟨member, List.mem_of_mem_filter hmem, Option.some.inj (Option.some.inj h)⟩
  · cases h

/-- Fields are nested less deep than their record. -/
theorem nesting_lt_of_fields? {names : List String} {d x : Document}
    {fields : List (Option Document)} (h : fields? names d = some fields) (hx : some x ∈ fields) :
    x.nesting < d.nesting := by
  cases d with
  | object members =>
      rw [fields?] at h
      obtain ⟨name, -, hname⟩ := Document.exists_mem_of_mapM h hx
      obtain ⟨m, hm, rfl⟩ := mem_of_field? hname
      exact Document.nesting_lt_object hm
  | array items =>
      rw [fields?] at h
      split at h
      · cases h
        rcases List.mem_append.1 hx with hx | hx
        · obtain ⟨y, hy, hyx⟩ := List.mem_map.1 hx
          cases hyx
          exact Document.nesting_lt_array hy
        -- What is missing at the end is no document.
        · cases List.eq_of_mem_replicate hx
      · cases h
  | null | bool b | number n | string s | void => cases h

end Wire

theorem Operator.ofDocument?_succ {d : Document} {room : Nat} (h : d.nesting ≤ room) :
    Operator.ofDocument? (room + 1) d = Operator.ofDocument? room d := by
  rw [Operator.ofDocument?, Operator.ofDocument?, Wire.bareName?_succ h]

theorem Operator.ofDocument?_toDocument (op : Operator) (room : Nat) :
    Operator.ofDocument? room op.toDocument = some op := by
  cases op <;> cases room <;> rfl

namespace Expr

theorem literal?_eq_none {d : Document} (h : d.nesting = 0) : literal? d = none := by
  have hnone : Wire.alternative? d = none := by
    cases halternative : Wire.alternative? d with
    | none => rfl
    | some found =>
        rw [Wire.eq_tagged_of_alternative? halternative, Wire.nesting_tagged] at h
        cases h
  rw [literal?, hnone]
  rfl

theorem operation?_congr {room room' : Nat} {read read' : Document → Option Expr} {d : Document}
    (hop : ∀ x, x.nesting < d.nesting → Operator.ofDocument? room x = Operator.ofDocument? room' x)
    (hread : ∀ x, x.nesting < d.nesting → read x = read' x) :
    operation? room read d = operation? room' read' d := by
  unfold operation?
  split
  · next op left right hfields =>
      have hlt : ∀ x ∈ [op, left, right], x.nesting < d.nesting :=
        fun x hx => Wire.nesting_lt_of_fields? hfields (List.mem_map_of_mem (f := some) hx)
      obtain ⟨hop', hleft, hright⟩ : op.nesting < d.nesting ∧ left.nesting < d.nesting ∧
          right.nesting < d.nesting := by
        simpa only [List.forall_mem_cons, List.not_mem_nil, false_imp_iff, implies_true,
          and_true] using hlt
      rw [hop op hop', hread left hleft, hread right hright]
  · rfl

theorem operation?_eq_none {room : Nat} {read : Document → Option Expr} {d : Document}
    (h : d.nesting = 0) : operation? room read d = none := by
  unfold operation?
  split
  · next op left right hfields =>
      have hlt := Wire.nesting_lt_of_fields? hfields List.mem_cons_self
      omega
  · rfl

/-- The arguments of a call stand in an array. -/
theorem nesting_of_fields?_call {names : List String} {d : Document} {function : Document}
    {args : List Document}
    (h : Wire.fields? names d = some [some function, some (.array args)]) :
    ∀ a ∈ args, a.nesting + 1 < d.nesting := by
  have harray := Wire.nesting_lt_of_fields? h (List.mem_cons_of_mem _ List.mem_cons_self)
  intro a ha
  have hitem := Document.nesting_lt_array ha
  omega

theorem call?_congr {read read' : Document → Option Expr} {d : Document}
    (hread : ∀ x, x.nesting + 1 < d.nesting → read x = read' x) :
    call? read d = call? read' d := by
  unfold call?
  split
  · next function args hfields =>
      have hargs := nesting_of_fields?_call hfields
      rw [Document.mapM_congr fun a ha => hread a (hargs a ha)]
  · rfl

theorem call?_eq_none {read : Document → Option Expr} {d : Document} (h : d.nesting ≤ 1) :
    call? read d = none := by
  unfold call?
  split
  · next function args hfields =>
      have harray := Wire.nesting_lt_of_fields? hfields (List.mem_cons_of_mem _ List.mem_cons_self)
      rw [Document.nesting] at harray
      omega
  · rfl

/-- An alternative, opened. -/
theorem ofDocument?_tagged (room : Nat) (name : String) (contents : Document) :
    ofDocument? (room + 1) (Wire.tagged name contents) =
      if name = "Variable" then contents.string?.map .variable
      else match room with
        | 0 => none
        | inner + 1 =>
          if name = "Literal" then (literal? contents).map .literal
          else if name = "BinaryOp" then operation? inner (ofDocument? inner) contents
          else match inner with
            | 0 => none
            | innermost + 1 =>
              if name = "FunctionCall" then call? (ofDocument? innermost) contents else none := by
  rw [ofDocument?]
  rfl

/-- More room than there are brackets makes no difference. -/
theorem ofDocument?_succ (room : Nat) : ∀ {d : Document}, d.nesting ≤ room →
    ofDocument? (room + 1) d = ofDocument? room d := by
  induction room using Nat.strongRecOn with
  | ind room ih =>
      intro d h
      cases halternative : Wire.alternative? d with
      | none =>
          have hnone : ∀ room, ofDocument? room d = none := by
            intro room
            cases room with
            | zero => rfl
            | succ room =>
                rw [ofDocument?, halternative]
                rfl
          rw [hnone, hnone]
      | some found =>
          obtain ⟨name, contents⟩ := found
          obtain rfl := Wire.eq_tagged_of_alternative? halternative
          rw [Wire.nesting_tagged] at h
          obtain ⟨room, rfl⟩ : ∃ k, room = k + 1 := ⟨room - 1, by omega⟩
          rw [ofDocument?_tagged, ofDocument?_tagged]
          by_cases hvariable : name = "Variable"
          · rw [if_pos hvariable, if_pos hvariable]
          rw [if_neg hvariable, if_neg hvariable]
          -- Two brackets hold a literal or an operation, and three a call.
          rcases room with _ | _ | room
          · dsimp only
            rw [literal?_eq_none (by omega), operation?_eq_none (by omega), Option.map_none]
            simp only [ite_self]
          · dsimp only
            rw [@operation?_congr 1 0 (ofDocument? 1) (ofDocument? 0) contents
              (fun x hx => Operator.ofDocument?_succ (by omega))
              fun x hx => ih 0 (by omega) (by omega),
              call?_eq_none (by omega)]
            simp only [ite_self]
          · dsimp only
            rw [@operation?_congr (room + 2) (room + 1) (ofDocument? (room + 2))
              (ofDocument? (room + 1)) contents
              (fun x hx => Operator.ofDocument?_succ (by omega))
              fun x hx => ih (room + 1) (by omega) (by omega),
              @call?_congr (ofDocument? (room + 1)) (ofDocument? room) contents
              fun x hx => ih room (by omega) (by omega)]

/-- What is read of a document whose brackets there is room for. -/
theorem ofDocument?_of_nesting_le {room : Nat} {d : Document} (h : d.nesting ≤ room) :
    ofDocument? room d = ofDocument? d.nesting d := by
  induction h with
  | refl => rfl
  | step h ih => rw [ofDocument?_succ _ h, ih]

/-- The fields of an operation, and those of a call, are found by their names. -/
theorem fields?_operation (op left right : Document) :
    Wire.fields? ["op", "left", "right"] (.object [("op", op), ("left", left), ("right", right)]) =
      some [some op, some left, some right] := rfl

theorem fields?_call (function arguments : Document) :
    Wire.fields? ["function", "arguments"]
      (.object [("function", function), ("arguments", arguments)]) =
      some [some function, some arguments] := rfl

theorem literal?_tagged (t : ScalarType) (contents : Document) :
    literal? (Wire.tagged (literalName t) contents) = Value.ofScalar? t contents := by
  have htype : (ScalarType.all.find? fun s => literalName s == literalName t) = some t := by
    cases t <;> decide
  rw [literal?, Wire.tagged, Wire.alternative?]
  simp only [Option.bind_eq_bind, Option.bind_some, htype]

theorem ofDocument?_variable (room : Nat) (name : String) :
    ofDocument? (room + 1) (Wire.tagged "Variable" (.string name)) = some (.variable name) := by
  rw [ofDocument?_tagged, if_pos rfl]
  rfl

theorem ofDocument?_literal (room : Nat) (contents : Document) :
    ofDocument? (room + 2) (Wire.tagged "Literal" contents) =
      (literal? contents).map .literal := by
  rw [ofDocument?_tagged, if_neg (by decide)]
  dsimp only
  rw [if_pos rfl]

theorem ofDocument?_operation (room : Nat) (op : Operator) (left right : Document) :
    ofDocument? (room + 2) (Wire.tagged "BinaryOp"
      (.object [("op", op.toDocument), ("left", left), ("right", right)])) =
      (ofDocument? room left).bind fun l => (ofDocument? room right).bind fun r =>
        some (.binary op l r) := by
  rw [ofDocument?_tagged, if_neg (by decide)]
  dsimp only
  rw [if_neg (by decide), if_pos rfl, operation?, fields?_operation]
  simp only [op.ofDocument?_toDocument]
  rfl

theorem ofDocument?_call (room : Nat) (function : String) (arguments : List Document) :
    ofDocument? (room + 3) (Wire.tagged "FunctionCall"
      (.object [("function", .string function), ("arguments", .array arguments)])) =
      (arguments.mapM (ofDocument? room)).bind fun args => some (.call function args) := by
  rw [ofDocument?_tagged, if_neg (by decide)]
  dsimp only
  rw [if_neg (by decide), if_neg (by decide), if_pos rfl, call?, fields?_call]
  rfl

theorem documents_eq_map (args : List Expr) : documents args = args.map toDocument := by
  induction args with
  | nil => rw [documents, List.map_nil]
  | cons e rest ih => rw [documents, List.map_cons, ih]

/-- Without room for its brackets nothing is read of a rule. -/
theorem ofDocument?_deep (e : Expr) :
    ∀ room, room < e.toDocument.nesting → ofDocument? room e.toDocument = none := by
  induction e using Expr.induct with
  | literal v =>
      intro room h
      rw [toDocument, Wire.nesting_tagged, Wire.nesting_tagged, v.nesting_scalar] at h
      rw [toDocument]
      rcases room with _ | _ | room
      · rfl
      · rw [ofDocument?_tagged, if_neg (by decide)]
      · omega
  | reference name =>
      intro room h
      rw [toDocument, Wire.nesting_tagged, Document.nesting] at h
      obtain rfl : room = 0 := by omega
      rfl
  | binary op left right hleft hright =>
      intro room h
      simp only [toDocument, Wire.nesting_tagged, Document.nesting, Document.memberNesting,
        Operator.toDocument] at h
      rw [toDocument]
      rcases room with _ | _ | room
      · rfl
      · rw [ofDocument?_tagged, if_neg (by decide)]
      · rw [ofDocument?_operation]
        -- One of the operands is nested as deep as the operation without its brackets.
        by_cases hroom : room < left.toDocument.nesting
        · rw [hleft room hroom]
          rfl
        · rw [hright room (by omega)]
          cases ofDocument? room left.toDocument <;> rfl
  | call function args ih =>
      intro room h
      simp only [toDocument, Wire.nesting_tagged, Document.nesting, Document.memberNesting] at h
      rw [toDocument]
      rcases room with _ | _ | _ | room
      · rfl
      · rw [ofDocument?_tagged, if_neg (by decide)]
      · rw [ofDocument?_tagged, if_neg (by decide)]
        rfl
      · have hdeep : ¬(Document.array (documents args)).nesting ≤ room + 1 := by
          rw [Document.nesting]
          omega
        rw [Document.nesting_array_le_iff, documents_eq_map, List.forall_mem_map] at hdeep
        obtain ⟨a, ha, hroom⟩ : ∃ a ∈ args, room < a.toDocument.nesting := by
          by_contra hnone
          exact hdeep fun a ha => Nat.le_of_not_lt fun hlt => hnone ⟨a, ha, hlt⟩
        rw [ofDocument?_call, documents_eq_map,
          Document.mapM_eq_none (List.mem_map_of_mem ha) (ih a ha room hroom)]
        rfl

end Expr

end Criteria
