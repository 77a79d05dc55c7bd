import Criteria.Proofs.Nearness
import Criteria.Proofs.Typing
import Criteria.Proofs.Wrapping

/-!
# Order of Integers in Data

Comparisons of whole numbers that come from data.

Data has whole numbers of 64 bits with a sign and without. A rule has integers with a sign
and doubles, so the numbers from `2 ^ 63` on are read as doubles, and a comparison with one of
them takes the other number for a double too. Identifiers are often that large, and somebody
who compares them wants to know what can go wrong. A double has 53 digits, so two different
numbers may be read as one double, and are then equal. Nothing else can happen. Rounding
keeps the order of numbers (`Binary64.scaled_ofInt_mono`), and doubles compare as what they
are worth, so a comparison is never the wrong way round.

This is why the main statement speaks of all comparisons at once. Each of them is the
comparison of two whole numbers, be it the numbers themselves or what the doubles for them
are worth, and what is to be known of these two numbers is only which one is the greater.

## Main definitions

* `Operator.compares`: Whether a comparison holds between two whole numbers.
* `Evaluator.ReadsWhole`: How a variable for a whole number is read.

## Theorems

* `Operator.compares_congr`: A comparison depends on the order of the two numbers alone.
* `Operator.onInts_compares`, `Operator.onFloats_compares`: Comparisons of integers and of
  finite doubles.
* `Caster.castValue_whole`: A whole number as a double.
* `Evaluator.comparisons_never_inverted`: Comparisons of whole numbers in data.
-/

namespace Criteria

namespace Operator

/-- Whether a comparison holds between two whole numbers. -/
def compares (a b : Int) : Operator → Bool
  | .equal => decide (a = b)
  | .notEqual => decide (a ≠ b)
  | .greater => decide (b < a)
  | .less => decide (a < b)
  | .greaterEqual => decide (b ≤ a)
  | .lessEqual => decide (a ≤ b)
  | _ => false

/-- A comparison comes to the same for two pairs of numbers that are in the same order. -/
theorem compares_congr {a b a' b' : Int} (hless : a < b ↔ a' < b') (hgreater : b < a ↔ b' < a')
    (op : Operator) : op.compares a b = op.compares a' b' := by
  cases op with
  | equal | notEqual | greater | less | greaterEqual | lessEqual =>
      exact decide_eq_decide.2 (by omega)
  | _ => rfl

/-- If two numbers are in the same order as two others, or else are equal, their comparisons are
    those of the others, or else all of them are comparisons of equal numbers. -/
theorem compares_of_le {a b a' b' : Int} (hle : a ≤ b → a' ≤ b') (hge : b ≤ a → b' ≤ a') :
    (∀ op : Operator, op.compares a' b' = op.compares a b) ∨
      a ≠ b ∧ ∀ op : Operator, op.compares a' b' = op.compares a a := by
  by_cases hmerged : a ≠ b ∧ a' = b'
  · exact Or.inr ⟨hmerged.1, compares_congr (by omega) (by omega)⟩
  · exact Or.inl (compares_congr (by omega) (by omega))

theorem isLogical_of_isComparison {op : Operator} (h : op.isComparison = true) :
    op.isLogical = false := by
  cases op with
  | and | or => cases h
  | _ => rfl

variable {op : Operator} (hop : op.isComparison = true) (policy : DivisionPolicy)

include hop

/-- Integers compare as the numbers that they are. -/
theorem onInts_compares (a b : Int64) :
    op.onInts policy a b = .ok (.bool (op.compares a.toInt b.toInt)) := by
  have hequal : (a == b) = decide (a.toInt = b.toInt) :=
    Bool.eq_iff_iff.2 (beq_iff_eq.trans (Int64.toInt_inj.symm.trans decide_eq_true_iff.symm))
  cases op with
  | equal => rw [onInts, compares, hequal]
  | notEqual => rw [onInts, compares, bne, hequal, decide_not]
  | greater | less => rw [onInts, compares, decide_eq_decide.2 Int64.lt_iff_toInt_lt]
  | greaterEqual | lessEqual => rw [onInts, compares, decide_eq_decide.2 Int64.le_iff_toInt_le]
  | _ => cases hop

/-- Finite doubles compare as what they are worth. -/
theorem onFloats_compares {x y : Float} (hx : x.isFinite = true) (hy : y.isFinite = true) :
    op.onFloats policy x y =
      .ok (.bool (op.compares (Binary64.scaled x) (Binary64.scaled y))) := by
  have hequal : (x == y) = decide (Binary64.scaled x = Binary64.scaled y) :=
    Bool.eq_iff_iff.2 ((Binary64.beq_iff hx hy).trans decide_eq_true_iff.symm)
  cases op with
  | equal => rw [onFloats, compares, hequal]
  | notEqual => rw [onFloats, compares, bne, hequal, decide_not]
  | greater => rw [onFloats, compares, decide_eq_decide.2 (Binary64.lt_iff hy hx)]
  | less => rw [onFloats, compares, decide_eq_decide.2 (Binary64.lt_iff hx hy)]
  | greaterEqual => rw [onFloats, compares, decide_eq_decide.2 (Binary64.le_iff hy hx)]
  | lessEqual => rw [onFloats, compares, decide_eq_decide.2 (Binary64.le_iff hx hy)]
  | _ => cases hop

end Operator

section Reading

variable {n : Int} (inRange : -0x8000000000000000 ≤ n ∧ n < 0x10000000000000000)

/-- A whole number of data is read as the integer that it is, if it is one. -/
theorem Value.ofJson_signed (h : n ≤ 2 ^ 63 - 1) :
    ofJson (.number (.int n inRange)) = .ok (.int (Int64.ofInt n)) :=
  ofJson_of_whole? (if_pos (by omega))

/-- Otherwise it is read as a double. -/
theorem Value.ofJson_unsigned (h : 2 ^ 63 - 1 < n) :
    ofJson (.number (.int n inRange)) = .ok (.float (Binary64.ofInt n)) := by
  have hnone : Json.Number.toInt64? (.int n inRange) = none := Whole.toInt64?_great (by omega)
  simp only [ofJson, hnone]
  rfl

theorem Value.exists_whole : ∃ v, ofJson (.number (.int n inRange)) = .ok v := by
  by_cases h : n ≤ 2 ^ 63 - 1
  · exact ⟨_, ofJson_signed inRange h⟩
  · exact ⟨_, ofJson_unsigned inRange (by omega)⟩

theorem Value.type_of_whole {v : Value} (hv : ofJson (.number (.int n inRange)) = .ok v) :
    v.type = if n ≤ 2 ^ 63 - 1 then .int64 else .float := by
  by_cases h : n ≤ 2 ^ 63 - 1
  · rw [ofJson_signed inRange h] at hv
    cases hv
    rw [if_pos h, type]
  · rw [ofJson_unsigned inRange (by omega)] at hv
    cases hv
    rw [if_neg h, type]

variable {m : Type → Type} [Monad m]

/-- However a whole number is read, it is cast to the double nearest to it. -/
theorem Caster.castValue_whole {v : Value}
    (hv : Value.ofJson (.number (.int n inRange)) = .ok v) :
    (Caster.json : Caster m).castValue v .float = pure (.float (Binary64.ofInt n)) := by
  by_cases h : n ≤ 2 ^ 63 - 1
  · rw [Value.ofJson_signed inRange h] at hv
    cases hv
    have hinteger : (Int64.ofInt n).toInt = n := Int64.toInt_ofInt_of_le (by omega) (by omega)
    have hcast : (Caster.json : Caster m).castValue (.int (Int64.ofInt n)) .float =
        pure (.float (Binary64.ofInt (Int64.ofInt n).toInt)) := rfl
    rw [hcast, hinteger]
  · rw [Value.ofJson_unsigned inRange (by omega)] at hv
    cases hv
    exact castValue_self _ (.float _)

/-- A variable has the value of the data that it stands for. -/
theorem Evaluator.eval_variable_of_value {ev : Evaluator m} {c : Context} {name : String}
    {j : Json} {v : Value} (hname : c.get? name = some j) (hv : Value.ofJson j = .ok v) :
    ev.eval (.variable name) c = pure v := by
  rw [eval_variable, Context.lookup, hname]
  exact congrArg Outcome.ofExcept hv

end Reading

section Comparing

variable {m : Type → Type} [Monad m]

/-- Comparisons of two whole numbers of which one is no integer are made between doubles. -/
theorem Semantics.apply_wholes [LawfulMonad m] (division : DivisionPolicy) {k n : Int} {hk hn}
    {v w : Value} (hv : Value.ofJson (.number (.int k hk)) = .ok v)
    (hw : Value.ofJson (.number (.int n hn)) = .ok w)
    (hgreat : 2 ^ 63 - 1 < k ∨ 2 ^ 63 - 1 < n) {op : Operator} (hop : op.isLogical = false) :
    (⟨Caster.json, division⟩ : Semantics m).apply (op.operandType v w) op (.value v) (.value w) =
      Outcome.ofExcept (op.onFloats division (Binary64.ofInt k) (Binary64.ofInt n)) := by
  have hkind : op.operandType v w = .float := by
    have hx := Value.type_of_whole hk hv
    have hy := Value.type_of_whole hn hw
    rw [op.operandType_numeric hop v w (by rw [hx]; split <;> rfl) (by rw [hy]; split <;> rfl),
      if_pos]
    rcases hgreat with h | h
    · exact Or.inl (hx.trans (if_neg (by omega)))
    · exact Or.inr (hy.trans (if_neg (by omega)))
  rw [hkind, apply]
  simp only [Operand.cast, Caster.castValue_whole hk hv, Caster.castValue_whole hn hw, pure_bind,
    combine, Operator.combine?]

namespace Evaluator

/-- How a variable for a whole number is read: as the integer that the number is, if it is one,
    and otherwise as the nearest double. The integer, too, is cast to the nearest double. -/
structure ReadsWhole (ev : Evaluator m) (c : Context) (name : String) (n : Int) (x : Float) :
    Prop where
  nearest : Binary64.IsNearest x n
  signed : n ≤ 2 ^ 63 - 1 → ∃ i : Int64, i.toInt = n ∧ ev.eval (.variable name) c = pure (.int i) ∧
    ev.caster.castValue (.int i) .float = pure (.float x)
  unsigned : 2 ^ 63 - 1 < n → ev.eval (.variable name) c = pure (.float x)

variable (division : DivisionPolicy) (registry : Registry m) {c : Context}

theorem readsWhole {name : String} {n : Int} {inRange}
    (hname : c.get? name = some (.number (.int n inRange))) :
    (⟨⟨Caster.json, division⟩, registry⟩ : Evaluator m).ReadsWhole c name n (Binary64.ofInt n) where
  nearest := Binary64.isNearest_ofInt (Binary64.nearest_lt_infinityBits (by omega))
  signed h := by
    have hv := Value.ofJson_signed inRange h
    exact ⟨_, Int64.toInt_ofInt_of_le (by omega) (by omega), eval_variable_of_value hname hv,
      Caster.castValue_whole inRange hv⟩
  unsigned h := eval_variable_of_value hname (Value.ofJson_unsigned inRange h)

/-- The comparisons of two whole numbers are those of two numbers that are in the same order
    or else equal: of the numbers themselves if both are integers, and if not, of what the
    nearest doubles are worth. -/
theorem exists_compared [LawfulMonad m] {a b : String} {k n : Int} {hk hn}
    (ha : c.get? a = some (.number (.int k hk))) (hb : c.get? b = some (.number (.int n hn))) :
    ∃ k' n' : Int, (k ≤ n → k' ≤ n') ∧ (n ≤ k → n' ≤ k') ∧
      (k ≤ 2 ^ 63 - 1 → n ≤ 2 ^ 63 - 1 → k' = k ∧ n' = n) ∧
      ∀ op : Operator, op.isComparison = true →
        (⟨⟨Caster.json, division⟩, registry⟩ : Evaluator m).eval
            (.binary op (.variable a) (.variable b)) c = pure (.bool (op.compares k' n')) ∧
          (2 ^ 63 - 1 < k ∨ 2 ^ 63 - 1 < n →
            op.onFloats division (Binary64.ofInt k) (Binary64.ofInt n) =
              .ok (.bool (op.compares k' n'))) := by
  have heval : ∀ {v w : Value}, Value.ofJson (.number (.int k hk)) = .ok v →
      Value.ofJson (.number (.int n hn)) = .ok w → ∀ op,
      (⟨⟨Caster.json, division⟩, registry⟩ : Evaluator m).eval
          (.binary op (.variable a) (.variable b)) c =
        Semantics.apply ⟨Caster.json, division⟩ (op.operandType v w) op (.value v) (.value w) := by
    intro v w hv hw op
    rw [eval_binary, eval_variable_of_value ha hv, eval_variable_of_value hb hw, pure_bind,
      pure_bind]
  by_cases hgreat : 2 ^ 63 - 1 < k ∨ 2 ^ 63 - 1 < n
  · have hx := (readsWhole division registry ha).nearest.finite
    have hy := (readsWhole division registry hb).nearest.finite
    obtain ⟨v, hv⟩ := Value.exists_whole hk
    obtain ⟨w, hw⟩ := Value.exists_whole hn
    refine ⟨_, _, Binary64.scaled_ofInt_mono, Binary64.scaled_ofInt_mono, fun hk' hn' => by omega,
      fun op hop => ⟨?_, fun _ => Operator.onFloats_compares hop division hx hy⟩⟩
    rw [heval hv hw, Semantics.apply_wholes division hv hw hgreat
      (Operator.isLogical_of_isComparison hop), Operator.onFloats_compares hop division hx hy,
      Outcome.ofExcept_ok]
  · refine ⟨k, n, id, id, fun _ _ => ⟨rfl, rfl⟩, fun op hop => ⟨?_, fun h => absurd h hgreat⟩⟩
    rw [heval (Value.ofJson_signed hk (by omega)) (Value.ofJson_signed hn (by omega)),
      Semantics.apply_ints _ (Operator.isLogical_of_isComparison hop),
      Operator.onInts_compares hop, Int64.toInt_ofInt_of_le (by omega) (by omega),
      Int64.toInt_ofInt_of_le (by omega) (by omega), Outcome.ofExcept_ok]

/-- Comparisons of whole numbers from data with 64 bits, signed or not, never fail and are
    never the wrong way round. If both numbers are integers, they are the comparisons of the
    numbers. If not, both are compared as the nearest doubles, and then the only deviation is
    that two different numbers may count as equal: all comparisons are then those of two equal
    numbers. So what is called less is less, and equal numbers are called equal. -/
theorem comparisons_never_inverted [LawfulMonad m] {a b : String} {k n : Int} {hk hn}
    (ha : c.get? a = some (.number (.int k hk))) (hb : c.get? b = some (.number (.int n hn))) :
    let ev : Evaluator m := ⟨⟨Caster.json, division⟩, registry⟩
    ∃ (x y : Float) (holds : Operator → Bool),
      (∀ op : Operator, op.isComparison = true →
        ev.eval (.binary op (.variable a) (.variable b)) c = pure (.bool (holds op))) ∧
      (k ≤ 2 ^ 63 - 1 → n ≤ 2 ^ 63 - 1 → ∀ op : Operator, holds op = op.compares k n) ∧
      (k = n → holds .equal = true) ∧
      (k < n → holds .lessEqual = true ∧ holds .greater = false ∧
        holds .greaterEqual = holds .equal ∧ holds .less = !holds .equal) ∧
      (holds .less = true → k < n) ∧
      ((∀ op : Operator, holds op = op.compares k n) ∨
        k ≠ n ∧ (2 ^ 63 - 1 < k ∨ 2 ^ 63 - 1 < n) ∧ ∀ op : Operator, holds op = op.compares k k) ∧
      ev.ReadsWhole c a k x ∧ ev.ReadsWhole c b n y ∧
      (2 ^ 63 - 1 < k ∨ 2 ^ 63 - 1 < n → ∀ op : Operator, op.isComparison = true →
        op.onFloats division x y = .ok (.bool (holds op))) := by
  intro ev
  obtain ⟨k', n', hle, hge, hsigned, hcompare⟩ := exists_compared division registry ha hb
  refine ⟨_, _, fun op => op.compares k' n', fun op hop => (hcompare op hop).1,
    fun hk' hn' op => ?_, fun heq => ?_, fun hlt => ?_, fun hless => ?_, ?_,
    readsWhole division registry ha, readsWhole division registry hb,
    fun hgreat op hop => (hcompare op hop).2 hgreat⟩
  · rw [(hsigned hk' hn').1, (hsigned hk' hn').2]
  · exact decide_eq_true (by omega)
  · have hle' := hle (by omega)
    refine ⟨decide_eq_true hle', decide_eq_false (by omega), decide_eq_decide.2 (by omega), ?_⟩
    exact (decide_eq_decide.2 (by omega)).trans (decide_not)
  · have hless' : k' < n' := of_decide_eq_true hless
    omega
  · by_cases hgreat : 2 ^ 63 - 1 < k ∨ 2 ^ 63 - 1 < n
    · exact (Operator.compares_of_le hle hge).imp_right fun h => ⟨h.1, hgreat, h.2⟩
    · obtain ⟨rfl, rfl⟩ := hsigned (by omega) (by omega)
      exact Or.inl fun op => rfl

/-- The first two numbers that are no integers differ in a digit that no double of their size
    has. They are equal as doubles, so the one is not less than the other. -/
theorem comparisons_never_inverted_neighbours :
    let first : Json := .number (.int 0x8000000000000000 (by decide))
    let second : Json := .number (.int 0x8000000000000001 (by decide))
    let c := (Context.empty.set "a" first).set "b" second
    let ev : Evaluator Id := ⟨⟨Caster.json, .error⟩, .empty⟩
    let eval (op : Operator) : Outcome Id Value :=
      ev.eval (.binary op (.variable "a") (.variable "b")) c
    c.get? "a" = some first ∧ c.get? "b" = some second ∧
      eval .equal = pure (.bool true) ∧ eval .less = pure (.bool false) ∧
      eval .greaterEqual = pure (.bool true) ∧ eval .greater = pure (.bool false) := by
  intro first second c ev eval
  have ha : c.get? "a" = some first := rfl
  have hb : c.get? "b" = some second := rfl
  rcases comparisons_never_inverted (m := Id) .error .empty ha hb with
    ⟨x, y, holds, hholds, _, _, hless, _, _, hx, hy, hdoubles⟩
  obtain ⟨_, hgreater, hgreaterEqual, hlt⟩ := hless (by decide)
  have hfirst : x = Binary64.ofInt 0x8000000000000000 :=
    Value.float.inj (Except.ok.inj ((hx.unsigned (by decide)).symm.trans
      (eval_variable_of_value ha (Value.ofJson_unsigned _ (by decide)))))
  have hsecond : y = Binary64.ofInt 0x8000000000000001 :=
    Value.float.inj (Except.ok.inj ((hy.unsigned (by decide)).symm.trans
      (eval_variable_of_value hb (Value.ofJson_unsigned _ (by decide)))))
  have hbits : (Binary64.ofInt 0x8000000000000000 == Binary64.ofInt 0x8000000000000001) = true := by
    decide +kernel
  have hsame : holds .equal = true := by
    have hequal := hdoubles (Or.inl (by decide)) .equal rfl
    rw [hfirst, hsecond, Operator.onFloats, hbits] at hequal
    exact (Value.bool.inj (Except.ok.inj hequal)).symm
  rw [hsame] at hgreaterEqual hlt
  refine ⟨ha, hb, ?_, ?_, ?_, ?_⟩
  · exact (hholds .equal rfl).trans (by rw [hsame])
  · exact (hholds .less rfl).trans (by rw [hlt]; rfl)
  · exact (hholds .greaterEqual rfl).trans (by rw [hgreaterEqual])
  · exact (hholds .greater rfl).trans (by rw [hgreater])

end Evaluator

end Comparing

end Criteria
