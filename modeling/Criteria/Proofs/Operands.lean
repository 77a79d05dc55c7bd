import Criteria.Caster.Data
import Criteria.Proofs.Causes
import Criteria.Proofs.IntegerRange

/-!
# Operands as Data and as Values

An operand gives the same answer whether it is JSON data or a value.

An operator is applied to what came out of subexpressions, or to data as it stands.
The two ways differ: a value of the wanted type is not cast at all, and a value
that has no form as data is not shown to the caster, while data always is. For the
caster for JSON data neither is seen from outside. Casting data to the type it has
changes nothing, and the values of data are those that have a form as data.

Whole numbers beyond the signed integers are the exception. As values they are
doubles, so they have lost their digits. They still fail as integers and as truth
values, in either way, since the double that they become is not less than `2 ^ 63`.

## Main definitions

* `Json.isScalar`: Whether data is a truth value, a number or text.

## Theorems

* `Value.ofJson_toJson`: A value with a form as data is the value of that data.
* `Value.exists_ofJson`: Scalar data has a value, and is the form of that value.
* `Caster.castValue_json_toJson`: A value is cast as its form is.
* `Binary64.ofInt_great`: Whole numbers beyond the signed integers as doubles.
* `Semantics.data_and_values_agree`: Operators do not tell the two apart.
-/

namespace Criteria

section Data

/-- Whether data is a truth value, a number or text. -/
def Json.isScalar : Json → Bool
  | .bool _ | .number _ | .string _ => true
  | _ => false

namespace Value

/-- A value with a form as data is the value of that data, type and all. -/
theorem ofJson_toJson {v : Value} (h : ∀ x, v = .float x → x.isFinite = true) :
    ofJson v.toJson = .ok v := by
  cases v with
  | int n =>
      have hint : (Json.Number.ofInt64 n).toInt64? = some n := Whole.toInt64?_toInt n
      simp only [toJson, ofJson, hint]
  | float x =>
      rw [toJson_float x (h x rfl)]
      rfl
  | string s => rfl
  | bool b => rfl

/-- Scalar data has a value and is the form of it, unless it is a whole number beyond
    the signed integers. -/
theorem exists_ofJson {j : Json} (hscalar : j.isScalar = true)
    (hsigned : ∀ n h, j = .number (.int n h) → n < 0x8000000000000000) :
    ∃ v, ofJson j = .ok v ∧ v.toJson = j ∧ ∀ x, v = .float x → x.isFinite = true := by
  cases j with
  | null | array items | object members => cases hscalar
  | bool b => exact ⟨.bool b, rfl, rfl, nofun⟩
  | string s => exact ⟨.string s, rfl, rfl, nofun⟩
  | number n =>
      cases n with
      | int n h =>
          -- A whole number within range keeps its digits as a value.
          have hlt := hsigned n h rfl
          obtain ⟨i, hi⟩ : ∃ i, Whole.toInt64? n = some i := ⟨_, if_pos ⟨h.1, hlt⟩⟩
          have hvalue : i.toInt = n := (Whole.toInt64?_eq_some_iff n i).1 hi
          refine ⟨.int i, ?_, ?_, nofun⟩
          · simp only [ofJson, Json.Number.toInt64?, hi]
          · simp only [toJson, Json.Number.ofInt64, hvalue]
      | float x h =>
          refine ⟨.float x, rfl, toJson_float x h, fun y hy => ?_⟩
          rw [← Value.float.inj hy]
          exact h

/-- Casting the form of a value to the type of the value gives the value back. -/
theorem cast_toJson_type {v : Value} (h : ∀ x, v = .float x → x.isFinite = true) :
    v.toJson.cast v.type = .ok v := by
  cases v with
  | int n =>
      have hint : Whole.toInt64? (Json.Number.ofInt64 n).truncate = some n := Whole.toInt64?_toInt n
      simp only [toJson, type, Json.cast, Json.castInt64_number, hint]
      rfl
  | float x =>
      rw [toJson_float x (h x rfl)]
      rfl
  | string s => rfl
  | bool b => rfl

end Value

end Data

section Casts

variable {m : Type → Type} [Monad m]

/-- A value with a form as data is cast as this data is. -/
theorem Caster.castValue_json_toJson {v : Value} (h : ∀ x, v = .float x → x.isFinite = true)
    (target : ScalarType) :
    (Caster.json : Caster m).castValue v target = Caster.json.cast v.toJson target := by
  by_cases htype : v.type = target
  · have hcast : (Caster.json : Caster m).cast v.toJson v.type =
        Outcome.ofExcept (v.toJson.cast v.type) := rfl
    rw [← htype, castValue_self, hcast, Value.cast_toJson_type h, Outcome.ofExcept_ok]
  · exact castValue_toJson _ v target htype h

/-- What comes after a result matters only if there is one. -/
theorem Outcome.ofExcept_bind_congr [LawfulMonad m] {α β : Type} {r : Except EvalError α}
    {f g : α → Outcome m β} (h : ∀ a, r = .ok a → f a = g a) :
    (ofExcept r >>= f : Outcome m β) = ofExcept r >>= g := by
  have hrun : ∀ k : α → Outcome m β, (ofExcept r >>= k : Outcome m β) =
      ExceptT.mk (ExceptT.bindCont k r) := fun k => pure_bind r (ExceptT.bindCont k)
  rw [hrun, hrun]
  cases r with
  | ok a => exact h a rfl
  | error err => rfl

/-- Operands are named in the error of a caster that gave values of other types, and
    nowhere else. -/
theorem Semantics.combine_congr {s : Semantics m} {kind : ScalarType} {op : Operator}
    {x y x' y' : Operand} {a b : Value} (ha : a.type = kind) (hb : b.type = kind) :
    s.combine kind op x y a b = s.combine kind op x' y' a b := by
  unfold combine
  cases hcombine : op.combine? s.division kind a b with
  | none => exact absurd ⟨ha, hb⟩ (Operator.combine?_eq_none hcombine)
  | some result => rfl

theorem Json.type_of_cast {j : Json} {target : ScalarType} {v : Value}
    (h : j.cast target = .ok v) : v.type = target := by
  rcases j.cast_cases target with ⟨w, htype, hcast⟩ | ⟨text, reason, hcast⟩
  · rw [hcast] at h
    rw [← Except.ok.inj h]
    exact htype
  · rw [hcast] at h
    cases h

/-- An operator gives the same for values as for their forms as data. -/
theorem Semantics.apply_toJson [LawfulMonad m] (policy : DivisionPolicy) {v w : Value}
    (hv : ∀ x, v = .float x → x.isFinite = true) (hw : ∀ x, w = .float x → x.isFinite = true)
    (kind : ScalarType) (op : Operator) :
    (⟨Caster.json, policy⟩ : Semantics m).apply kind op (.value v) (.value w) =
      (⟨Caster.json, policy⟩ : Semantics m).apply kind op (.raw v.toJson) (.raw w.toJson) := by
  have hleft : (Operand.value v).cast Caster.json kind =
      (Outcome.ofExcept (v.toJson.cast kind) : Outcome m Value) :=
    Caster.castValue_json_toJson hv kind
  have hright : (Operand.value w).cast Caster.json kind =
      (Outcome.ofExcept (w.toJson.cast kind) : Outcome m Value) :=
    Caster.castValue_json_toJson hw kind
  unfold apply
  rw [hleft, hright]
  -- Only results of the right type go on, and then the operands are not named.
  refine Outcome.ofExcept_bind_congr fun a ha => Outcome.ofExcept_bind_congr fun b hb => ?_
  exact combine_congr (Json.type_of_cast ha) (Json.type_of_cast hb)

end Casts

section Great

/-- As a double a whole number beyond the signed integers is finite, and still beyond
    them. -/
theorem Binary64.ofInt_great {n : Int} (hlow : 0x8000000000000000 ≤ n)
    (hhigh : n < 0x10000000000000000) :
    (ofInt n).isFinite = true ∧ 0x8000000000000000 ≤ truncate (ofInt n) := by
  obtain ⟨k, rfl⟩ : ∃ k : Nat, n = k := ⟨n.toNat, by omega⟩
  have hsigned : decide ((k : Int) < 0) = false := decide_eq_false (by omega)
  have hdouble : ofInt k = ofMagnitude false (nearest k 1) := by
    rw [ofInt, hsigned, Int.natAbs_natCast]
  have hbits : nearest k 1 ≤ infinityBits := nearest_le_infinityBits k 1
  -- Rounding keeps the order, so the magnitude lies between those of the bounds.
  obtain ⟨hlowBits, hlowUnits⟩ := @nearest_two_pow 63 (by decide)
  obtain ⟨hhighBits, -⟩ := @nearest_two_pow 64 (by decide)
  have hfrom := @nearest_mono (2 ^ 63) k 1 (by omega)
  have hto := @nearest_mono k (2 ^ 64) 1 (by omega)
  rw [hlowBits] at hfrom
  rw [hhighBits] at hto
  have hunits := units_mono hfrom
  rw [hlowUnits] at hunits
  have hwhole : 2 ^ 63 ≤ units (nearest k 1) >>> 1074 := by
    rw [shiftRight_one]
    exact (Nat.le_div_iff_mul_le one_pos).2 hunits
  rw [hdouble, isFinite_iff, truncate, magnitude_ofMagnitude _ hbits, isNegative_ofMagnitude _ hbits]
  refine ⟨Nat.lt_of_le_of_lt hto (by decide), ?_⟩
  rw [if_neg Bool.false_ne_true]
  omega

theorem Whole.toInt64?_great {n : Int} (h : 0x8000000000000000 ≤ n) : toInt64? n = none :=
  if_neg fun hfits => by omega

/-- A number beyond the signed integers is refused as an integer. -/
theorem Json.cast_int64_great {n : Json.Number} (h : 0x8000000000000000 ≤ n.truncate) :
    ∃ err, (Json.number n).cast .int64 = .error err := by
  refine ⟨.coercion n.text .int64 Refusal.outOfRange.text, ?_⟩
  simp only [cast, castInt64_number, Whole.toInt64?_great h]
  rfl

/-- A number that is not a signed integer is refused as a truth value. -/
theorem Json.cast_bool_great {n : Json.Number} (h : n.toInt64? = none) :
    ∃ err, (Json.number n).cast .bool = .error err := by
  refine ⟨.coercion n.text .bool Refusal.notBoolNumber.text, ?_⟩
  simp only [cast, castBool, h, reduceCtorEq, if_false]
  rfl

/-- A whole number beyond the signed integers fails as an integer and as a truth
    value, both as data and as the double that is its value. As doubles the two are
    the same. -/
theorem Json.cast_great {m : Type → Type} [Monad m] {n : Int}
    (inRange : -0x8000000000000000 ≤ n ∧ n < 0x10000000000000000)
    (hgreat : 0x8000000000000000 ≤ n) :
    ∃ x, Value.ofJson (.number (.int n inRange)) = .ok (.float x) ∧
      (∀ target, target = .int64 ∨ target = .bool →
        (∃ err, (Caster.json : Caster m).cast (.number (.int n inRange)) target = throw err) ∧
        ∃ err, (Caster.json : Caster m).castValue (.float x) target = throw err) ∧
      (Caster.json : Caster m).cast (.number (.int n inRange)) .float = pure (.float x) ∧
      (Caster.json : Caster m).castValue (.float x) .float = pure (.float x) := by
  obtain ⟨hfinite, htruncate⟩ := Binary64.ofInt_great hgreat inRange.2
  have hnone : Json.Number.toInt64? (.int n inRange) = none := Whole.toInt64?_great hgreat
  have hvalue : ∀ target, (Caster.json : Caster m).castValue (.float (Binary64.ofInt n)) target =
      Outcome.ofExcept ((Json.number (.float _ hfinite)).cast target) := by
    intro target
    rw [Caster.castValue_json_toJson (fun y hy => Value.float.inj hy ▸ hfinite),
      Value.toJson_float _ hfinite]
    rfl
  refine ⟨Binary64.ofInt n, ?_, fun target htarget => ?_, rfl, ?_⟩
  · simp only [Value.ofJson, hnone]
    rfl
  · rw [hvalue]
    rcases htarget with rfl | rfl
    · obtain ⟨err, herr⟩ := @cast_int64_great (.int n inRange) hgreat
      obtain ⟨err', herr'⟩ := @cast_int64_great (.float _ hfinite) htruncate
      exact ⟨⟨err, congrArg Outcome.ofExcept herr⟩, ⟨err', congrArg Outcome.ofExcept herr'⟩⟩
    · obtain ⟨err, herr⟩ := cast_bool_great hnone
      obtain ⟨err', herr'⟩ := @cast_bool_great (.float _ hfinite) rfl
      exact ⟨⟨err, congrArg Outcome.ofExcept herr⟩, ⟨err', congrArg Outcome.ofExcept herr'⟩⟩
  · rw [hvalue]
    rfl

end Great

/-- With the caster for JSON data operands may be given as data or as values. An
    operator does the same for values that have a form as data as for these forms;
    and scalar data is cast as its value is, errors included. Of whole numbers beyond
    the signed integers this holds for doubles, and the other casts but the one to
    text are refused in either way. -/
theorem Semantics.data_and_values_agree {m : Type → Type} [Monad m] [LawfulMonad m]
    (policy : DivisionPolicy) :
    (∀ v w : Value, (∀ x, v = .float x → x.isFinite = true) →
      (∀ x, w = .float x → x.isFinite = true) → ∀ (kind : ScalarType) (op : Operator),
      (⟨Caster.json, policy⟩ : Semantics m).apply kind op (.value v) (.value w) =
        (⟨Caster.json, policy⟩ : Semantics m).apply kind op (.raw v.toJson) (.raw w.toJson)) ∧
    (∀ j : Json, j.isScalar = true →
      (∀ n inRange, j = .number (.int n inRange) → n ≤ 0x7FFFFFFFFFFFFFFF) →
      ∃ v, Value.ofJson j = .ok v ∧ ∀ target,
        (Caster.json : Caster m).cast j target = Caster.json.castValue v target) ∧
    ∀ (n : Int) (inRange), 0x7FFFFFFFFFFFFFFF < n →
      ∃ v x, Value.ofJson (.number (.int n inRange)) = .ok v ∧
        (∀ target, target = .int64 ∨ target = .bool →
          (∃ err, (Caster.json : Caster m).cast (.number (.int n inRange)) target = throw err) ∧
          ∃ err, (Caster.json : Caster m).castValue v target = throw err) ∧
        (Caster.json : Caster m).cast (.number (.int n inRange)) .float = pure (.float x) ∧
        (Caster.json : Caster m).castValue v .float = pure (.float x) := by
  refine ⟨fun v w hv hw kind op => apply_toJson policy hv hw kind op, fun j hscalar hsigned => ?_,
    fun n inRange hgreat => ?_⟩
  · obtain ⟨v, hvalue, hjson, hfinite⟩ :=
      Value.exists_ofJson hscalar fun n inRange hn => Int.lt_add_one_of_le (hsigned n inRange hn)
    refine ⟨v, hvalue, fun target => ?_⟩
    rw [Caster.castValue_json_toJson hfinite, hjson]
  · obtain ⟨x, hx⟩ := @Json.cast_great m _ n inRange hgreat
    exact ⟨.float x, x, hx⟩

/-- A double and an integer, text as data, and the first whole number beyond the
    signed integers. -/
theorem Semantics.data_and_values_agree_sum :
    (∀ x, Value.float (Binary64.ofMagnitude false 0x3FF8000000000000) = .float x →
      x.isFinite = true) ∧
    (∀ x, Value.int 1 = .float x → x.isFinite = true) ∧
    (⟨Caster.json, .error⟩ : Semantics Id).apply .float .add
        (.value (.float (Binary64.ofMagnitude false 0x3FF8000000000000))) (.value (.int 1)) =
      (⟨Caster.json, .error⟩ : Semantics Id).apply .float .add
        (.raw (Value.float (Binary64.ofMagnitude false 0x3FF8000000000000)).toJson)
        (.raw (Value.int 1).toJson) ∧
    (Json.string "7").isScalar = true ∧
    (∀ n inRange, Json.string "7" = .number (.int n inRange) → n ≤ 0x7FFFFFFFFFFFFFFF) ∧
    (∃ v, Value.ofJson (.string "7") = .ok v ∧ ∀ target,
      (Caster.json : Caster Id).cast (.string "7") target = Caster.json.castValue v target) ∧
    (0x7FFFFFFFFFFFFFFF : Int) < 0x8000000000000000 ∧
    ∃ v x, Value.ofJson (.number (.int 0x8000000000000000 (by decide))) = .ok v ∧
      (∀ target, target = .int64 ∨ target = .bool →
        (∃ err, (Caster.json : Caster Id).cast
          (.number (.int 0x8000000000000000 (by decide))) target = throw err) ∧
        ∃ err, (Caster.json : Caster Id).castValue v target = throw err) ∧
      (Caster.json : Caster Id).cast (.number (.int 0x8000000000000000 (by decide))) .float =
        pure (.float x) ∧
      (Caster.json : Caster Id).castValue v .float = pure (.float x) := by
  have hfinite : ∀ x, Value.float (Binary64.ofMagnitude false 0x3FF8000000000000) = .float x →
      x.isFinite = true := by
    intro x hx
    rw [← Value.float.inj hx, Binary64.isFinite_iff, Binary64.magnitude_ofMagnitude _ (by decide)]
    decide
  obtain ⟨hvalues, hdata, hgreat⟩ := @Semantics.data_and_values_agree Id _ _ .error
  have hint : ∀ x, Value.int 1 = .float x → x.isFinite = true := nofun
  have htext : ∀ n inRange, Json.string "7" = .number (.int n inRange) → n ≤ 0x7FFFFFFFFFFFFFFF := by
    intro n inRange h
    cases h
  have hlarge : (0x7FFFFFFFFFFFFFFF : Int) < 0x8000000000000000 := by omega
  exact ⟨hfinite, hint, hvalues _ _ hfinite hint .float .add, rfl, htext, hdata _ rfl htext,
    hlarge, hgreat _ _ hlarge⟩

end Criteria
