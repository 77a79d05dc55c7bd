import Criteria.Expr.Parts
import Criteria.Proofs.Reading
import Criteria.Proofs.WireForms

/-!
# Rules Read Back

Which rules survive being written and read.

Two things can go wrong between the text of a rule and the rule. A literal that is
infinite or not a number has no text and is written as null; and a reader stops at
brackets nested too deep. The brackets that a rule opens can be counted without
writing it, and where the count is within the limit and the literals are finite
the rule is read back. In all other cases nothing is read, so that a rule is never
taken for another one.

What writes and reads rules is generated, and the text passes through a library, so
both are parameters here. Of the codec it is known which form it gives to each kind
of rule and what it makes of such a form (`Expr.Codec.Lawful`). A form holds the forms
of the operands and arguments, of whatever these are, so that nothing is said of whole
rules, and nothing of how deep they are: the one limit is on the brackets of a text.
Rules come out by induction, and so does the count.

## Main definitions

* `Expr.depth`: How many brackets are open at once in the text of a rule.
* `Expr.hasFiniteLiterals`: Whether all literals of a rule have a text.
* `Expr.Codec.Lawful`: What is asked of a codec for rules.

## Theorems

* `Expr.Codec.nesting_encode`: The count of brackets is right.
* `Expr.Codec.decode?_encode`: What is made of the form of a rule.
* `Expr.Codec.standard_lawful`: The codec at hand is lawful.
* `Expr.wireText_read_back_iff`: Which rules are read back from their text.
-/

namespace Criteria

open Json (Document)

namespace Value

/-- Whether a value has a text of its own: it is no double, or a finite one. -/
def isWritable : Value → Bool
  | .float x => x.isFinite
  | _ => true

/-- The contents of a literal are read as its value, if it has a text. -/
theorem ofScalar?_scalar (v : Value) :
    ofScalar? v.type v.scalar = if v.isWritable then some v else none := by
  cases v with
  | int n =>
      have hint : (Json.Number.ofInt64 n).toInt64? = some n := Whole.toInt64?_toInt n
      simp only [type, scalar, toJson, Json.toDocument, ofScalar?, Document.int64?, hint, isWritable,
        Option.map_some, if_true]
  | float x =>
      by_cases hfinite : x.isFinite = true
      · rw [scalar, toJson_float x hfinite, isWritable, if_pos hfinite]
        rfl
      · rw [scalar, toJson_infinite x (Bool.eq_false_iff.2 hfinite), isWritable, if_neg hfinite]
        rfl
  | string s => rfl
  | bool b => rfl

end Value

namespace Wire

theorem tagged_definite {name : String} {contents : Document} (h : contents.Definite) :
    (tagged name contents).Definite :=
  .object _ fun m hm => by
    rw [List.mem_singleton.1 hm]
    exact h

end Wire

namespace Expr

mutual

/-- How many brackets are open at once in the text of a rule. -/
def depth : Expr → Nat
  | .literal _ => 2
  | .variable _ => 1
  | .binary _ left right => 2 + max left.depth right.depth
  | .call _ args => 3 + argumentDepth args

/-- The greatest depth of an argument, zero if there is none. -/
def argumentDepth : List Expr → Nat
  | [] => 0
  | e :: rest => max e.depth (argumentDepth rest)

end

/-- Whether no literal of a rule is infinite or not a number. -/
def hasFiniteLiterals (e : Expr) : Bool :=
  e.parts.all fun
    | .literal v => v.isWritable
    | _ => true

theorem hasFiniteLiterals_iff (e : Expr) :
    e.hasFiniteLiterals = true ↔ ∀ x, .literal (.float x) ∈ e.parts → x.isFinite = true := by
  rw [hasFiniteLiterals, List.all_eq_true]
  constructor
  · intro h x hx
    exact h _ hx
  · intro h part hpart
    match part, hpart with
    | .literal (.float x), hpart => exact h x hpart
    -- All values but doubles can be written.
    | .literal (.int _), _ | .literal (.string _), _ | .literal (.bool _), _ => rfl
    | .variable _, _ => rfl
    | .binary _ _ _, _ => rfl
    | .call _ _, _ => rfl

theorem hasFiniteLiterals_literal (v : Value) :
    (literal v).hasFiniteLiterals = v.isWritable := by
  rw [hasFiniteLiterals, parts, List.all_cons, List.all_nil, Bool.and_true]

theorem hasFiniteLiterals_variable (name : String) :
    (Expr.variable name).hasFiniteLiterals = true := by
  rw [hasFiniteLiterals, parts, List.all_cons, List.all_nil]
  rfl

theorem hasFiniteLiterals_binary (op : Operator) (left right : Expr) :
    (binary op left right).hasFiniteLiterals =
      (left.hasFiniteLiterals && right.hasFiniteLiterals) := by
  rw [hasFiniteLiterals, parts, List.all_cons, List.all_append]
  rfl

theorem hasFiniteLiterals_call (function : String) (args : List Expr) :
    (call function args).hasFiniteLiterals = args.all hasFiniteLiterals := by
  rw [hasFiniteLiterals, parts, List.all_cons, argumentParts_eq_flatMap, List.all_flatMap]
  rfl

namespace Codec

/-- What is asked of a codec for rules. -/
structure Lawful (L : Json.Library) (C : Codec) : Prop where
  encode_literal : ∀ v, C.encode (.literal v) =
    Wire.tagged "Literal" (Wire.tagged (literalName v.type) v.scalar)
  encode_variable : ∀ name, C.encode (.variable name) = Wire.tagged "Variable" (.string name)
  encode_binary : ∀ op left right, C.encode (.binary op left right) =
    Wire.tagged "BinaryOp"
      (.object [("op", op.toDocument), ("left", C.encode left), ("right", C.encode right)])
  encode_call : ∀ function args, C.encode (.call function args) =
    Wire.tagged "FunctionCall"
      (.object [("function", .string function), ("arguments", .array (args.map C.encode))])
  /-- A literal is read by the name of its type, and there is none without contents of
      this type. -/
  decode_literal : ∀ t contents,
    C.decode? (Wire.tagged "Literal" (Wire.tagged (literalName t) contents)) =
      (Value.ofScalar? t contents).map .literal
  decode_variable : ∀ name,
    C.decode? (Wire.tagged "Variable" (.string name)) = some (.variable name)
  /-- Operands are read as rules, whatever they are, and arguments are too. -/
  decode_binary : ∀ (op : Operator) (left right : Document),
    C.decode? (Wire.tagged "BinaryOp"
      (.object [("op", op.toDocument), ("left", left), ("right", right)])) =
      (C.decode? left).bind fun l => (C.decode? right).bind fun r => some (.binary op l r)
  decode_call : ∀ (function : String) (args : List Document),
    C.decode? (Wire.tagged "FunctionCall"
      (.object [("function", .string function), ("arguments", .array args)])) =
      (args.mapM C.decode?).bind fun args => some (.call function args)
  /-- Text is read by what it spells, unless more brackets are open at once than the
      limit allows. -/
  read_spelled : ∀ s e, Json.Spells L.numbers s (C.encode e) →
    C.read? s = if (C.encode e).nesting ≤ Json.nestingLimit then C.decode? (C.encode e) else none

section Lawful

variable {L : Json.Library} {C : Codec} (hC : C.Lawful L)

include hC

/-- A document of a rule has only literals that denote something. -/
theorem encode_definite (e : Expr) : (C.encode e).Definite := by
  induction e using Expr.induct with
  | literal v =>
      rw [hC.encode_literal]
      exact Wire.tagged_definite (Wire.tagged_definite v.toJson.toDocument_definite)
  | reference name =>
      rw [hC.encode_variable]
      exact Wire.tagged_definite (.string name)
  | binary op left right hleft hright =>
      rw [hC.encode_binary]
      refine Wire.tagged_definite (.object _ ?_)
      simp only [List.forall_mem_cons]
      exact ⟨.string _, hleft, hright, fun m hm => absurd hm List.not_mem_nil⟩
  | call function args ih =>
      rw [hC.encode_call]
      refine Wire.tagged_definite (.object _ ?_)
      simp only [List.forall_mem_cons]
      exact ⟨.string _, .array _ (List.forall_mem_map.2 ih), fun m hm => absurd hm List.not_mem_nil⟩

/-- The brackets of a rule are those of its document. -/
theorem nesting_encode (e : Expr) : (C.encode e).nesting = e.depth := by
  induction e using Expr.induct with
  | literal v =>
      rw [hC.encode_literal, Wire.nesting_tagged, Wire.nesting_tagged, v.nesting_scalar, depth]
  | reference name => rw [hC.encode_variable, Wire.nesting_tagged, Document.nesting, depth]
  | binary op left right hleft hright =>
      simp only [hC.encode_binary, Wire.nesting_tagged, Document.nesting, Document.memberNesting,
        Operator.toDocument, hleft, hright, depth]
      omega
  | call function args ih =>
      have hargs : Document.itemNesting (args.map C.encode) = argumentDepth args := by
        clear hC
        induction args with
        | nil => rfl
        | cons a rest ihrest =>
            rw [List.map_cons, Document.itemNesting, argumentDepth, ih a List.mem_cons_self,
              ihrest fun b hb => ih b (List.mem_cons_of_mem a hb)]
      simp only [hC.encode_call, Wire.nesting_tagged, Document.nesting, Document.memberNesting,
        hargs, depth]
      omega

/-- What is made of the form of a rule is the rule, if all its literals have a text. -/
theorem decode?_encode (e : Expr) :
    C.decode? (C.encode e) = if e.hasFiniteLiterals then some e else none := by
  induction e using Expr.induct with
  | literal v =>
      rw [hC.encode_literal, hC.decode_literal, v.ofScalar?_scalar, hasFiniteLiterals_literal]
      cases v.isWritable <;> rfl
  | reference name =>
      rw [hC.encode_variable, hC.decode_variable, hasFiniteLiterals_variable, if_pos rfl]
  | binary op left right hleft hright =>
      rw [hC.encode_binary, hC.decode_binary, hleft, hright, hasFiniteLiterals_binary]
      cases left.hasFiniteLiterals <;> cases right.hasFiniteLiterals <;> rfl
  | call function args ih =>
      rw [hC.encode_call, hC.decode_call, Document.mapM_map ih, hasFiniteLiterals_call]
      simp only [List.all_eq_true]
      split <;> rfl

/-- What is read of the text of a rule. -/
theorem read?_wireText (hL : L.Lawful) (e : Expr) : C.read? (e.wireText L C) =
    if e.hasFiniteLiterals = true ∧ e.depth ≤ 127 then some e else none := by
  have hspelled := Json.Library.spells_write hL (encode_definite hC e)
  rw [wireText, hC.read_spelled _ e hspelled, nesting_encode hC, decode?_encode hC,
    Json.nestingLimit]
  by_cases hdepth : e.depth ≤ 127
  · simp only [hdepth, if_true, and_true]
  · simp only [hdepth, if_false, and_false]

end Lawful

/-- The codec at hand is one for the library at hand. -/
theorem standard_lawful : standard.Lawful Json.Library.standard where
  encode_literal v := by
    dsimp only [standard]
    rw [toDocument]
  encode_variable name := by
    dsimp only [standard]
    rw [toDocument]
  encode_binary op left right := by
    dsimp only [standard]
    rw [toDocument]
  encode_call function args := by
    dsimp only [standard]
    rw [toDocument, documents_eq_map]
  decode_literal t contents := by
    dsimp only [standard]
    rw [Wire.nesting_tagged, Wire.nesting_tagged, ofDocument?_literal, literal?_tagged]
  decode_variable name := by
    dsimp only [standard]
    rw [Wire.nesting_tagged, ofDocument?_variable]
  decode_binary op left right := by
    obtain ⟨room, hroom, hleft, hright⟩ : ∃ room, (Wire.tagged "BinaryOp"
        (.object [("op", op.toDocument), ("left", left), ("right", right)])).nesting = room + 2 ∧
        left.nesting ≤ room ∧ right.nesting ≤ room := by
      refine ⟨max left.nesting right.nesting, ?_, by omega, by omega⟩
      simp only [Wire.nesting_tagged, Document.nesting, Document.memberNesting, Operator.toDocument]
      omega
    dsimp only [standard]
    rw [hroom, ofDocument?_operation, ofDocument?_of_nesting_le hleft,
      ofDocument?_of_nesting_le hright]
  decode_call function args := by
    obtain ⟨room, hroom, hargs⟩ : ∃ room, (Wire.tagged "FunctionCall" (.object
        [("function", .string function), ("arguments", .array args)])).nesting = room + 3 ∧
        (Document.array args).nesting ≤ room + 1 := by
      refine ⟨Document.itemNesting args, ?_, ?_⟩
      · simp only [Wire.nesting_tagged, Document.nesting, Document.memberNesting]
        omega
      · rw [Document.nesting, Nat.add_comm]
    have hargs := (Document.nesting_array_le_iff args room).1 hargs
    dsimp only [standard]
    rw [hroom, ofDocument?_call,
      Document.mapM_congr fun a ha => ofDocument?_of_nesting_le (hargs a ha)]
  read_spelled s e h := by
    have hread : standard.read? s = ofDocument? Json.nestingLimit (standard.encode e) := by
      change ofWireText? s = _
      rw [ofWireText?, Document.read?_of_spells h, Option.bind_some]
    rw [hread]
    by_cases hfits : (standard.encode e).nesting ≤ Json.nestingLimit
    · rw [if_pos hfits]
      exact ofDocument?_of_nesting_le hfits
    · rw [if_neg hfits]
      exact ofDocument?_deep e _ (Nat.lt_of_not_le hfits)

end Codec

/-- A rule is read back from its text exactly if its literals are finite and it opens
    at most 127 brackets at once; from the text of any other rule nothing is read. -/
theorem wireText_read_back_iff (L : Json.Library) (hL : L.Lawful) (C : Codec) (hC : C.Lawful L)
    (e : Expr) :
    (C.read? (e.wireText L C) = some e ↔
      (∀ x, .literal (.float x) ∈ e.parts → x.isFinite = true) ∧ e.depth ≤ 127) ∧
    (C.read? (e.wireText L C) ≠ some e → C.read? (e.wireText L C) = none) := by
  rw [Codec.read?_wireText hC hL, ← hasFiniteLiterals_iff]
  by_cases hfits : e.hasFiniteLiterals = true ∧ e.depth ≤ 127
  · rw [if_pos hfits]
    exact ⟨iff_of_true rfl hfits, fun h => absurd rfl h⟩
  · rw [if_neg hfits]
    exact ⟨iff_of_false (Option.some_ne_none e).symm hfits, fun _ => rfl⟩

/-- Forty-two negations of a variable are read back, and forty-three are not. -/
theorem wireText_read_back_iff_negations :
    let L := Json.Library.standard
    let C := Codec.standard
    let negated (n : Nat) : Expr := Nat.repeat (fun e => .call "not" [e]) n (.variable "x")
    L.Lawful ∧ C.Lawful L ∧ C.read? ((negated 42).wireText L C) = some (negated 42) ∧
      C.read? ((negated 43).wireText L C) = none := by
  intro L C negated
  have hL : L.Lawful := Json.Library.standard_lawful
  have hC : C.Lawful L := Codec.standard_lawful
  have hliterals : (negated 42).hasFiniteLiterals = true := by decide +kernel
  have hfits : (negated 42).depth ≤ 127 := by decide +kernel
  have hdeep : ¬(negated 43).depth ≤ 127 := by decide +kernel
  obtain ⟨hread, -⟩ := wireText_read_back_iff L hL C hC (negated 42)
  obtain ⟨hiff, hnone⟩ := wireText_read_back_iff L hL C hC (negated 43)
  exact ⟨hL, hC, hread.2 ⟨(hasFiniteLiterals_iff _).1 hliterals, hfits⟩,
    hnone fun h => hdeep (hiff.1 h).2⟩

end Expr

end Criteria
