import Criteria.Proofs.Doubles
import Criteria.Proofs.Grammar
import Criteria.Proofs.Shortest

/-!
# Numbers Read Back

The text of a number in JSON data is read as this number again.

Whole numbers are read back in every format, since the grammar leaves no choice for
them. Of doubles this has to be asked, and what is asked is little: that their digits
are read as the double they were written for, and that they do not look like a whole
number. The format in use keeps to that.

A numeral has up to three parts: digits, a fraction behind a point, and a power of
ten behind a mark. All that is read of numerals is proved of the parts, once for
every numeral, and what is left to see of a layout is which parts it writes.
Doubles are written with a fraction or with a power of ten, whole numbers with
neither, so the one is never taken for the other. The sign stands apart from the
digits, which is how the negative zero keeps it.

## Main definitions

* `Text.Numeral`: A numeral by its parts.
* `Text.Numeral.chars`, `Text.Numeral.decimal`: How it is written, and what it
  stands for.
* `Text.Numeral.Proper`: Parts that make up a numeral of JSON text.
* `Json.NumberFormat.Lawful`: What is asked of a number format.

## Theorems

* `Text.Numeral.readDecimal?_chars`: A numeral is read as what it stands for.
* `Text.Numeral.unsigned_chars`: It follows the grammar.
* `Layout.exists_numeral`: What is written for a double is a numeral, with a
  fraction or a power of ten, that stands for the double.
* `Json.NumberFormat.number?_unsigned`: A number is read back in every lawful format.
* `Json.NumberFormat.nearest_lawful`: The format in use is lawful.
-/

namespace Criteria

namespace Text

/-- Digits are split from what follows them, if it does not go on with one. -/
theorem spanDigits_append {digits rest : List Char} (hdigits : ∀ c ∈ digits, c.isDigit = true)
    (hrest : ∀ c ∈ rest.head?, c.isDigit = false) : spanDigits (digits ++ rest) = (digits, rest) := by
  unfold spanDigits
  rw [List.takeWhile_append_of_pos hdigits, List.dropWhile_append_of_pos hdigits]
  cases rest with
  | nil => rw [List.takeWhile_nil, List.dropWhile_nil, List.append_nil]
  | cons c cs =>
      have hc : c.isDigit = false := hrest c rfl
      rw [List.takeWhile_cons, List.dropWhile_cons, hc, if_neg Bool.false_ne_true,
        if_neg Bool.false_ne_true, List.append_nil]

theorem isDigit_of_mem_toDigits {n : Nat} {c : Char} (h : c ∈ Nat.toDigits 10 n) :
    c.isDigit = true :=
  Nat.isDigit_of_mem_toDigits (by decide) (by decide) h

/-- Digits do not start with anything else. -/
theorem ne_cons_of_digits {digits : List Char} (h : ∀ d ∈ digits, d.isDigit = true) {c : Char}
    (hc : c.isDigit = false) (rest : List Char) : digits ≠ c :: rest := by
  rintro rfl
  rw [h c List.mem_cons_self] at hc
  cases hc

theorem readNat?_toDigits (n : Nat) : readNat? (Nat.toDigits 10 n) = some n := by
  have hall : (Nat.toDigits 10 n).all Char.isDigit = true :=
    List.all_eq_true.2 fun c hc => isDigit_of_mem_toDigits hc
  rw [readNat?, if_pos ⟨Nat.toDigits_ne_nil, hall⟩, Nat.ofDigitChars_ten_toDigits]

/-- A numeral by its parts: the digits before the point, those behind it, and the
    power of ten, if it has one. -/
structure Numeral where
  whole : List Char
  fraction : List Char
  power : Option Int

namespace Numeral

/-- A point and the digits behind it, unless there are none. -/
def point : List Char → List Char
  | [] => []
  | first :: rest => '.' :: first :: rest

/-- The mark of a power of ten, its sign and its digits. -/
def mark : Option Int → List Char
  | none => []
  | some e => 'e' :: (if e < 0 then '-' else '+') :: Nat.toDigits 10 e.natAbs

/-- A numeral as it is written. -/
def chars (n : Numeral) : List Char :=
  n.whole ++ (point n.fraction ++ mark n.power)

/-- The decimal that a numeral stands for. -/
def decimal (n : Numeral) : Decimal :=
  ⟨Nat.ofDigitChars 10 (n.whole ++ n.fraction) 0, n.power.getD 0 - n.fraction.length⟩

/-- Parts that make up a numeral of JSON text: digits, and no zero in front of
    another one. -/
structure Proper (n : Numeral) : Prop where
  nonempty : n.whole ≠ []
  whole : ∀ c ∈ n.whole, c.isDigit = true
  fraction : ∀ c ∈ n.fraction, c.isDigit = true
  leading : n.whole.head? = some '0' → n.whole = ['0']

/-- A power of ten is written with its sign. -/
theorem readExponent?_sign (e : Int) :
    readExponent? ((if e < 0 then '-' else '+') :: Nat.toDigits 10 e.natAbs) = some e := by
  by_cases hnegative : e < 0
  · have hvalue : -(e.natAbs : Int) = e := by omega
    rw [if_pos hnegative]
    simp only [readExponent?, readNat?_toDigits]
    exact congrArg some hvalue
  · have hvalue : (e.natAbs : Int) = e := by omega
    rw [if_neg hnegative]
    simp only [readExponent?, readNat?_toDigits]
    exact congrArg some hvalue

/-- Behind the digits the power of ten is read, or none. -/
theorem read_mark (scaled : Int → Decimal) (power : Option Int) :
    (match mark power with
      | [] => some (scaled 0)
      | c :: rest => if c = 'e' ∨ c = 'E' then (readExponent? rest).map scaled else none) =
      some (scaled (power.getD 0)) := by
  cases power with
  | none => rfl
  | some e =>
      simp only [mark, true_or, if_true, Option.getD_some]
      rw [readExponent?_sign, Option.map_some]

theorem head?_mark (power : Option Int) : ∀ c ∈ (mark power).head?, c.isDigit = false := by
  cases power with
  | none => exact fun c hc => absurd hc (Option.not_mem_none c)
  | some e =>
      intro c hc
      rw [← Option.some.inj hc]
      rfl

theorem head?_point_mark (fraction : List Char) (power : Option Int) :
    ∀ c ∈ (point fraction ++ mark power).head?, c.isDigit = false := by
  cases fraction with
  | nil => exact head?_mark power
  | cons first rest =>
      intro c hc
      rw [← Option.some.inj hc]
      rfl

/-- A numeral is read as the decimal it stands for. -/
theorem readDecimal?_chars {n : Numeral} (h : n.Proper) : readDecimal? n.chars = some n.decimal := by
  obtain ⟨whole, fraction, power⟩ := n
  have hnonempty : whole ≠ [] := h.nonempty
  have hwhole := spanDigits_append h.whole (head?_point_mark fraction power)
  have hfraction := spanDigits_append h.fraction (head?_mark power)
  have hread := read_mark fun e =>
    ⟨Nat.ofDigitChars 10 (whole ++ fraction) 0, e - fraction.length⟩
  simp only [readDecimal?, chars, hwhole]
  cases fraction with
  | nil =>
      cases power with
      | none =>
          simp only [point, mark, hnonempty, false_and, if_false, List.nil_append]
          exact hread none
      | some e =>
          simp only [point, mark, hnonempty, false_and, if_false, List.nil_append]
          exact hread (some e)
  | cons first rest =>
      simp only [List.cons_append] at hfraction
      simp only [point, List.cons_append, hfraction, hnonempty, false_and, if_false]
      exact hread power

/-- A numeral follows the grammar of JSON text. -/
theorem unsigned_chars {n : Numeral} (h : n.Proper) : Json.Grammar.Unsigned n.chars := by
  obtain ⟨whole, fraction, power⟩ := n
  refine ⟨whole, point fraction, mark power, ⟨⟨h.nonempty, h.whole⟩, h.leading⟩, ?_, ?_, rfl⟩
  · cases fraction with
    | nil => exact Or.inl rfl
    | cons first rest =>
        exact Or.inr ⟨first :: rest, ⟨List.cons_ne_nil _ _, h.fraction⟩, rfl⟩
  · cases power with
    | none => exact Or.inl rfl
    | some e =>
        refine Or.inr ⟨'e', [if e < 0 then '-' else '+'], Nat.toDigits 10 e.natAbs,
          List.mem_cons_self, ?_, ⟨Nat.toDigits_ne_nil, fun c hc => isDigit_of_mem_toDigits hc⟩, rfl⟩
        split
        · decide
        · decide

/-- A numeral with a fraction or a power of ten shows it. -/
theorem exists_mark {n : Numeral} (h : n.fraction ≠ [] ∨ n.power ≠ none) :
    ∃ c ∈ n.chars, c = '.' ∨ c = 'e' := by
  obtain ⟨whole, fraction, power⟩ := n
  cases fraction with
  | cons first rest => exact ⟨'.', List.mem_append_right _ List.mem_cons_self, Or.inl rfl⟩
  | nil =>
      cases power with
      | none => exact absurd h (by simp only [ne_eq, not_true_eq_false, or_self, not_false_eq_true])
      | some e => exact ⟨'e', List.mem_append_right _ List.mem_cons_self, Or.inr rfl⟩

/-- Besides digits there can be a point, a mark and a sign in a numeral. -/
theorem forall_chars {p : Char → Prop} (hdigit : ∀ c : Char, c.isDigit = true → p c)
    (hpoint : p '.') (hmark : p 'e') (hplus : p '+') (hminus : p '-') {n : Numeral}
    (h : n.Proper) : ∀ c ∈ n.chars, p c := by
  obtain ⟨whole, fraction, power⟩ := n
  intro c hc
  rcases List.mem_append.1 hc with hc | hc
  · exact hdigit c (h.whole c hc)
  rcases List.mem_append.1 hc with hc | hc
  · cases fraction with
    | nil => cases hc
    | cons first rest =>
        rcases List.mem_cons.1 hc with rfl | hc
        · exact hpoint
        · exact hdigit c (h.fraction c hc)
  · cases power with
    | none => cases hc
    | some e =>
        rcases List.mem_cons.1 hc with rfl | hc
        · exact hmark
        rcases List.mem_cons.1 hc with rfl | hc
        · split
          · exact hminus
          · exact hplus
        · exact hdigit c (isDigit_of_mem_toDigits hc)

/-- Digits alone are the numeral of a whole number. -/
theorem proper_toDigits (k : Nat) : Proper ⟨Nat.toDigits 10 k, [], none⟩ := by
  refine ⟨Nat.toDigits_ne_nil, fun c hc => isDigit_of_mem_toDigits hc,
    fun c hc => absurd hc List.not_mem_nil, fun hzero => ?_⟩
  by_cases hne : k = 0
  · rw [hne]
    rfl
  · exact absurd hzero (Decimal.head?_toDigits_ne_zero _ hne)

/-- A point is set in front of digits. -/
theorem point_of_ne_nil {fraction : List Char} (h : fraction ≠ []) :
    point fraction = '.' :: fraction := by
  cases fraction with
  | nil => exact absurd rfl h
  | cons first rest => rfl

theorem decimal_eq {n : Numeral} {d : Decimal}
    (hcoefficient : Nat.ofDigitChars 10 (n.whole ++ n.fraction) 0 = d.coefficient)
    (hexponent : n.power.getD 0 - n.fraction.length = d.exponent) : n.decimal = d := by
  rw [decimal, hcoefficient, hexponent]

/-- A numeral that is written for the double nearest to a row of digits: it shows
    that it is no whole number, and it is read as that double. -/
structure Writes (n : Numeral) (s : Scientific) : Prop extends Proper n where
  double : n.fraction ≠ [] ∨ n.power ≠ none
  nearest : n.decimal.nearest = s.decimal.nearest

end Numeral

end Text

namespace Scientific

open Text (Numeral)

variable {s : Scientific}

/-- Below one the point stands in front of all digits and of some zeros. -/
theorem writes_below_one (h : s.Normal) (hexponent : s.exponent < 0) (whole : List Char) :
    ∃ n : Numeral, n.Writes s ∧ s.positional whole = n.chars := by
  have hpositive : 0 < s.digits.length := List.length_pos_iff.2 h.nonempty
  have hne : List.replicate (-s.exponent - 1).toNat '0' ++ s.digits ≠ [] :=
    List.append_ne_nil_of_right_ne_nil _ h.nonempty
  have hzero : ∀ c ∈ ['0'], c.isDigit = true := fun c hc => List.mem_singleton.1 hc ▸ rfl
  refine ⟨⟨['0'], List.replicate (-s.exponent - 1).toNat '0' ++ s.digits, none⟩,
    ⟨⟨List.cons_ne_nil _ _, hzero, fun c hc => ?_, fun _ => rfl⟩, Or.inl hne, ?_⟩, ?_⟩
  · rcases List.mem_append.1 hc with hc | hc
    · rw [List.eq_of_mem_replicate hc]
      rfl
    · exact h.digits c hc
  · have hcoefficient : Nat.ofDigitChars 10
        (['0'] ++ (List.replicate (-s.exponent - 1).toNat '0' ++ s.digits)) 0 =
        Nat.ofDigitChars 10 s.digits 0 := by
      rw [← List.append_assoc, Nat.ofDigitChars_append]
      congr 1
      rw [Nat.ofDigitChars_append, Nat.ofDigitChars_replicate_zero]
      rfl
    refine congrArg Decimal.nearest (Numeral.decimal_eq hcoefficient ?_)
    simp only [Option.getD_none, List.length_append, List.length_replicate, decimal]
    omega
  · rw [positional, if_pos hexponent, Numeral.chars, Numeral.point_of_ne_nil hne]
    simp only [Numeral.mark, List.append_nil, List.singleton_append]

/-- A whole number is filled up with zeros, and one more stands behind the point. -/
theorem writes_whole (h : s.Normal) (hexponent : 0 ≤ s.exponent)
    (hlength : s.digits.length ≤ s.exponent.toNat + 1) :
    ∃ n : Numeral, n.Writes s ∧ s.positional ['.', '0'] = n.chars := by
  have hpositive : 0 < s.digits.length := List.length_pos_iff.2 h.nonempty
  obtain ⟨zeros, hzeros⟩ : ∃ zeros, s.exponent.toNat + 1 - s.digits.length = zeros := ⟨_, rfl⟩
  have hzero : ∀ c ∈ ['0'], c.isDigit = true := fun c hc => List.mem_singleton.1 hc ▸ rfl
  refine ⟨⟨s.digits ++ List.replicate zeros '0', ['0'], none⟩,
    ⟨⟨List.append_ne_nil_of_left_ne_nil h.nonempty _, fun c hc => ?_, hzero, fun hhead => ?_⟩,
      Or.inl (List.cons_ne_nil _ _), ?_⟩, ?_⟩
  · rcases List.mem_append.1 hc with hc | hc
    · exact h.digits c hc
    · rw [List.eq_of_mem_replicate hc]
      rfl
  · -- A zero in front is all there is, so there is nothing to fill up.
    rw [List.head?_append_of_ne_nil _ h.nonempty] at hhead
    have hzero := h.leading hhead
    subst hzero
    have hnone : zeros = 0 := hzeros.symm
    rw [hnone]
    rfl
  · have hcoefficient : Nat.ofDigitChars 10 (s.digits ++ List.replicate zeros '0' ++ ['0']) 0 =
        Nat.ofDigitChars 10 s.digits 0 * 10 ^ (zeros + 1) := by
      have hrow : List.replicate zeros '0' ++ ['0'] = List.replicate (zeros + 1) '0' :=
        (List.replicate_succ' ..).symm
      rw [List.append_assoc, hrow, Nat.ofDigitChars_append, Nat.ofDigitChars_replicate_zero,
        Nat.mul_comm]
    have hvalue : (⟨s.digits ++ List.replicate zeros '0', ['0'], none⟩ : Numeral).decimal =
        ⟨Nat.ofDigitChars 10 s.digits 0 * 10 ^ (zeros + 1), -1⟩ :=
      Numeral.decimal_eq hcoefficient rfl
    rw [hvalue, Decimal.nearest_shift, decimal]
    congr 2
    omega
  · rw [positional, if_neg (by omega)]
    simp only [if_pos hlength, hzeros]
    rfl

/-- Otherwise the point stands among the digits. -/
theorem writes_mixed (h : s.Normal) (hexponent : 0 ≤ s.exponent)
    (hlength : s.exponent.toNat + 1 < s.digits.length) (whole : List Char) :
    ∃ n : Numeral, n.Writes s ∧ s.positional whole = n.chars := by
  have hfraction : s.digits.drop (s.exponent.toNat + 1) ≠ [] := by
    rw [ne_eq, List.drop_eq_nil_iff]
    omega
  have hhead : (s.digits.take (s.exponent.toNat + 1)).head? = s.digits.head? := by
    rw [List.head?_take, if_neg (by omega)]
  refine ⟨⟨s.digits.take (s.exponent.toNat + 1), s.digits.drop (s.exponent.toNat + 1), none⟩,
    ⟨⟨fun hnil => ?_, fun c hc => h.digits c (List.mem_of_mem_take hc),
      fun c hc => h.digits c (List.mem_of_mem_drop hc), fun hzero => ?_⟩, Or.inl hfraction, ?_⟩, ?_⟩
  · have hnone := hhead.symm.trans (congrArg List.head? hnil)
    exact h.nonempty (List.head?_eq_none_iff.1 hnone)
  · -- A zero in front would be the only digit, and there are several.
    rw [hhead] at hzero
    have hs := h.leading hzero
    rw [hs] at hlength
    exact absurd hlength (by decide)
  · have hcoefficient : s.digits.take (s.exponent.toNat + 1) ++ s.digits.drop (s.exponent.toNat + 1) =
        s.digits := List.take_append_drop _ _
    refine congrArg Decimal.nearest (Numeral.decimal_eq (by rw [hcoefficient, decimal]) ?_)
    simp only [Option.getD_none, List.length_drop, decimal]
    omega
  · rw [positional, if_neg (by omega), Numeral.chars, Numeral.point_of_ne_nil hfraction]
    simp only [if_neg (Nat.not_le.2 hlength), Numeral.mark, List.append_nil]

/-- With a power of ten one digit stands in front of the point. -/
theorem writes_exponential (h : s.Normal) :
    ∃ n : Numeral, n.Writes s ∧ s.exponential = n.chars := by
  obtain ⟨digits, e⟩ := s
  cases digits with
  | nil => exact absurd rfl h.nonempty
  | cons first rest =>
      have hfirst : first.isDigit = true := h.digits first List.mem_cons_self
      refine ⟨⟨[first], rest, some e⟩, ⟨⟨List.cons_ne_nil _ _, fun c hc => ?_,
        fun c hc => h.digits c (List.mem_cons_of_mem _ hc), fun hzero => ?_⟩,
        Or.inr (Option.some_ne_none e), rfl⟩, ?_⟩
      · rw [List.mem_singleton.1 hc]
        exact hfirst
      · rw [Option.some.inj hzero]
      · cases rest with
        | nil => rfl
        | cons second rest => rfl

end Scientific

namespace Layout

open Text (Numeral)

/-- What is written for a finite magnitude in JSON text is a numeral of a double
    that is read as this magnitude. -/
theorem exists_numeral {bits : Nat} (h : bits ≤ Binary64.infinityBits) :
    ∃ n : Numeral, n.Proper ∧ (n.fraction ≠ [] ∨ n.power ≠ none) ∧ n.decimal.nearest = bits ∧
      json.magnitudeText bits = n.chars := by
  have hread : (Decimal.shortest json.tie bits).scientific.decimal.nearest = bits := by
    rw [Decimal.nearest_scientific, Decimal.nearest_shortest _ h]
  have hnormal := Decimal.scientific_normal (Decimal.shortest json.tie bits)
  unfold magnitudeText
  dsimp only
  generalize (Decimal.shortest json.tie bits).scientific = s at hread hnormal ⊢
  have hwrites : ∃ n : Numeral, n.Writes s ∧
      (if json.positionalAt s.exponent then s.positional json.whole else s.exponential) = n.chars := by
    split
    · by_cases hexponent : s.exponent < 0
      · exact Scientific.writes_below_one hnormal hexponent _
      · by_cases hlength : s.digits.length ≤ s.exponent.toNat + 1
        · exact Scientific.writes_whole hnormal (Int.not_lt.1 hexponent) hlength
        · exact Scientific.writes_mixed hnormal (Int.not_lt.1 hexponent) (Nat.not_le.1 hlength) _
    · exact Scientific.writes_exponential hnormal
  obtain ⟨n, hn, hchars⟩ := hwrites
  exact ⟨n, hn.toProper, hn.double, hn.nearest.trans hread, hchars⟩

end Layout

namespace Json

namespace NumberFormat

/-- What is asked of a number format. Of other numerals than those that it writes it is
    not asked how close to them they are read. -/
structure Lawful (N : NumberFormat) : Prop where
  /-- Doubles are written as numerals. -/
  unsigned : ∀ x : Float, x.isFinite = true → Grammar.Unsigned (N.digits x)
  /-- There is something in them that whole numbers do not have. -/
  marked : ∀ x : Float, x.isFinite = true → ∃ c ∈ N.digits x, c ∈ ['.', 'e', 'E']
  /-- They are read as the double that they were written for. -/
  read_digits : ∀ x : Float, x.isFinite = true →
    N.read? (Binary64.isNegative x) (N.digits x) = some x

/-- A whole number is read back in every format. -/
theorem number?_int (N : NumberFormat) (n : Int)
    (h : -0x8000000000000000 ≤ n ∧ n < 0x10000000000000000) :
    N.number? (Number.int n h).isSigned (N.unsigned (.int n h)) = some (.int n h) := by
  simp only [number?, unsigned, Number.isSigned, Text.readNat?_toDigits]
  by_cases hnegative : n < 0
  · have hfits : n.natAbs ≠ 0 ∧ n.natAbs ≤ 0x8000000000000000 := by omega
    have hvalue : -(n.natAbs : Int) = n := by omega
    simp only [hnegative, decide_true, if_true, dif_pos hfits, hvalue]
  · have hfits : n.natAbs < 0x10000000000000000 := by omega
    have hvalue : (n.natAbs : Int) = n := by omega
    simp only [hnegative, decide_false, Bool.false_eq_true, if_false, dif_pos hfits, hvalue]

/-- A mark among the digits of a numeral shows that it is no whole number. -/
theorem readNat?_of_marked {cs : List Char} (h : ∃ c ∈ cs, c ∈ ['.', 'e', 'E']) :
    Text.readNat? cs = none := by
  obtain ⟨c, hc, hmark⟩ := h
  rw [Text.readNat?, if_neg]
  rintro ⟨-, hall⟩
  have hdigit : c.isDigit = true := List.all_eq_true.1 hall c hc
  simp only [List.mem_cons, List.not_mem_nil, or_false] at hmark
  rcases hmark with rfl | rfl | rfl <;> cases hdigit

section Lawful

variable {N : NumberFormat} (hN : N.Lawful)

include hN

/-- Every number is read back from its numeral, and its sign from the sign. -/
theorem number?_unsigned (n : Number) : N.number? n.isSigned (N.unsigned n) = some n := by
  cases n with
  | int n h => exact N.number?_int n h
  | float x h =>
      simp only [number?, unsigned, Number.isSigned, readNat?_of_marked (hN.marked x h), double?,
        hN.read_digits x h, Option.bind_some, Number.ofFloat?, dif_pos h]

/-- A number is written as a numeral, behind its sign if it has one. -/
theorem unsigned_unsigned (n : Number) : Grammar.Unsigned (N.unsigned n) := by
  cases n with
  | int n h =>
      have hchars := Text.Numeral.unsigned_chars (Text.Numeral.proper_toDigits n.natAbs)
      rw [Text.Numeral.chars, Text.Numeral.point, Text.Numeral.mark, List.append_nil,
        List.append_nil] at hchars
      exact hchars
  | float x h => exact hN.unsigned x h

end Lawful

/-- The shortest decimals are read back if numerals are read as the nearest double. -/
theorem nearest_lawful : nearest.Lawful := by
  have hnumeral : ∀ x : Float, x.isFinite = true → ∃ n : Text.Numeral, n.Proper ∧
      (n.fraction ≠ [] ∨ n.power ≠ none) ∧ n.decimal.nearest = Binary64.magnitude x ∧
      nearest.digits x = n.chars := by
    intro x h
    exact Layout.exists_numeral (Nat.le_of_lt ((Binary64.isFinite_iff x).1 h))
  refine ⟨fun x h => ?_, fun x h => ?_, fun x h => ?_⟩
  · obtain ⟨n, hproper, -, -, hchars⟩ := hnumeral x h
    rw [hchars]
    exact Text.Numeral.unsigned_chars hproper
  · obtain ⟨n, -, hdouble, -, hchars⟩ := hnumeral x h
    obtain ⟨c, hc, hmark⟩ := Text.Numeral.exists_mark hdouble
    rw [hchars]
    refine ⟨c, hc, ?_⟩
    rcases hmark with rfl | rfl
    · exact List.mem_cons_self
    · exact List.mem_cons_of_mem _ List.mem_cons_self
  · obtain ⟨n, hproper, -, hnearest, hchars⟩ := hnumeral x h
    rw [hchars]
    simp only [nearest, Text.Numeral.readDecimal?_chars hproper, Option.map_some, Decimal.toFloat,
      hnearest, Binary64.ofMagnitude_magnitude]

end NumberFormat

namespace Number

open Text (Numeral)

/-- A number as written in the format in use, without its sign. -/
def unsigned (n : Number) : List Char :=
  NumberFormat.nearest.unsigned n

theorem unsigned_float (x : Float) (h : x.isFinite = true) :
    (float x h).unsigned = Layout.json.magnitudeText (Binary64.magnitude x) := rfl

theorem chars_eq (n : Number) :
    n.chars = if n.isSigned then '-' :: n.unsigned else n.unsigned := rfl

theorem chars_int (n : Int) (h : -0x8000000000000000 ≤ n ∧ n < 0x10000000000000000) :
    (int n h).chars =
      if n < 0 then '-' :: Nat.toDigits 10 n.natAbs else Nat.toDigits 10 n.natAbs := by
  simp only [chars_eq, isSigned, decide_eq_true_eq]
  rfl

/-- A number is written as a numeral, and this numeral is read as the number. -/
theorem unsigned_read (n : Number) :
    ∃ numeral : Numeral, numeral.Proper ∧ n.unsigned = numeral.chars ∧
      NumberFormat.nearest.number? n.isSigned n.unsigned = some n := by
  have hread := NumberFormat.number?_unsigned NumberFormat.nearest_lawful n
  cases n with
  | int n h =>
      exact ⟨_, Numeral.proper_toDigits n.natAbs, (List.append_nil _).symm, hread⟩
  | float x h =>
      have hbits := (Binary64.isFinite_iff x).1 h
      obtain ⟨numeral, hproper, -, -, hchars⟩ := Layout.exists_numeral (Nat.le_of_lt hbits)
      exact ⟨numeral, hproper, hchars, hread⟩

/-- A numeral starts with a digit. -/
theorem head?_unsigned (n : Number) : ∃ c rest, c.isDigit = true ∧ n.unsigned = c :: rest :=
  Grammar.Unsigned.head (NumberFormat.unsigned_unsigned NumberFormat.nearest_lawful n)

end Number

end Json

end Criteria
