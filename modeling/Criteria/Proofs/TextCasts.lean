import Criteria.Proofs.NumberText
import Criteria.Proofs.Operands

/-!
# Casts through Text

A value that has been turned into text is cast as it was before.

Every value can be cast to text. If this is read again, the same comes out as if the
value had been cast directly, whatever the type that is wanted, and for its own type
that is the value itself. There are two routes, which have little in common: the
direct one looks at numbers, the other one at their digits. They agree for integers,
since the digits of an integer are read as this integer and as the double nearest to
it; and for doubles, since the text of a finite double is a numeral that is read as
this double, and the words for the others are understood.

A truth value can be `1` or `0` as a number and as text, but only whole numbers are
written like this. The text of a number says which number it is, so the one digit
comes from the one number and from no double. For the same reason the text of a
finite double is never read as an integer. Directly a double becomes an integer by
losing its fraction, and that is where the routes part.

## Main definitions

* `Value.written`: The text that a value is cast to.

## Theorems

* `Text.readInt64_chars`, `Text.readInt64_of_other`: What is read as an integer.
* `Text.readFloat_chars`: The text of a number is read as the nearest double.
* `Json.Number.chars_injective`: Different numbers are written differently.
* `Layout.text_cases`: The words for doubles that are not finite.
* `Json.cast_text`: Numbers are cast as their texts are.
* `Caster.casts_through_text`: So are values.
-/

namespace Criteria

namespace Text

section Characters

variable {c : Char}

theorem isBlank_of_isDigit (h : c.isDigit = true) : isBlank c = false := by
  rw [Char.isDigit_iff_toNat] at h
  refine Bool.eq_false_iff.2 fun hblank => ?_
  rcases inRanges_iff.1 hblank with ⟨range, hrange, hlow, hhigh⟩
  have hranges : ∀ r ∈ blankRanges, r.2 < '0'.toNat ∨ '9'.toNat < r.1 := by decide
  have hapart := hranges range hrange
  omega

theorem toLower_of_isDigit (h : c.isDigit = true) : c.toLower = c := by
  rw [Char.isDigit_iff_toNat] at h
  refine Char.toLower_eq_of_not_isUpper fun hupper => ?_
  have hfrom : 'A'.toNat ≤ c.toNat := (of_decide_eq_true hupper).1
  have hbelow : '9'.toNat < 'A'.toNat := by decide
  omega

end Characters

/-- There is nothing to trim from text without blanks. -/
theorem trim_of_not_blank {cs : List Char} (h : ∀ c ∈ cs, isBlank c = false) : trim cs = cs := by
  have hdrop : ∀ l : List Char, (∀ c ∈ l, isBlank c = false) → l.dropWhile isBlank = l := by
    intro l hl
    cases l with
    | nil => rfl
    | cons c rest => rw [List.dropWhile_cons, hl c List.mem_cons_self, if_neg Bool.false_ne_true]
  have hreverse : ∀ c ∈ cs.reverse, isBlank c = false := fun c hc => h c (List.mem_reverse.1 hc)
  rw [trim, hdrop cs h, hdrop cs.reverse hreverse, List.reverse_reverse]

section Integers

variable {limit : Nat} {past : NumeralError}

/-- Digits never make a number smaller. -/
theorem le_ofDigitChars (digits : List Char) (acc : Nat) : acc ≤ Nat.ofDigitChars 10 digits acc := by
  induction digits generalizing acc with
  | nil => exact Nat.le_refl acc
  | cons d rest ih =>
      rw [Nat.ofDigitChars_cons]
      exact Nat.le_trans (by omega) (ih _)

/-- Digits are read if the number they make is within the limit. -/
theorem readDigits_of_le {digits : List Char} (hdigits : ∀ d ∈ digits, d.isDigit = true) {acc : Nat}
    (h : Nat.ofDigitChars 10 digits acc ≤ limit) :
    readDigits limit past acc digits = .ok (Nat.ofDigitChars 10 digits acc) := by
  induction digits generalizing acc with
  | nil => rfl
  | cons d rest ih =>
      rw [Nat.ofDigitChars_cons] at h ⊢
      -- The number only grows, so no digit before the last takes it past the limit.
      have hnext : 10 * acc + digitValue d ≤ limit := Nat.le_trans (le_ofDigitChars rest _) h
      rw [readDigits, if_pos (hdigits d List.mem_cons_self), if_pos hnext]
      exact ih (fun e he => hdigits e (List.mem_cons_of_mem d he)) h

/-- What is no digit is an error, wherever it stands. -/
theorem readDigits_of_other {cs : List Char} {c : Char} (hc : c ∈ cs) (hother : c.isDigit = false)
    (acc : Nat) : ∃ fault, readDigits limit past acc cs = .error fault := by
  induction cs generalizing acc with
  | nil => cases hc
  | cons d rest ih =>
      rw [readDigits]
      by_cases hdigit : d.isDigit = true
      · have hrest : c ∈ rest := by
          refine (List.mem_cons.1 hc).resolve_left ?_
          rintro rfl
          rw [hdigit] at hother
          cases hother
        rw [if_pos hdigit]
        split
        · exact ih hrest _
        · exact ⟨past, rfl⟩
      · rw [if_neg hdigit]
        exact ⟨.invalidDigit, rfl⟩

/-- There are no other characters in an integer than digits and a sign. -/
theorem readInt64_of_other {cs : List Char} {c : Char} (hc : c ∈ cs) (hother : c.isDigit = false)
    (hplus : c ≠ '+') (hminus : c ≠ '-') : ∃ fault, readInt64 cs = .error fault := by
  have hread : ∀ {limit past rest} {f : Int → Int64}, c ∈ rest → ∃ fault,
      Except.map f (do let n ← readDigits limit past 0 rest; pure (n : Int)) = .error fault := by
    intro limit past rest f hrest
    rcases @readDigits_of_other limit past rest c hrest hother 0 with ⟨fault, hfault⟩
    rw [hfault]
    exact ⟨fault, rfl⟩
  -- Whether there is a sign or not, the character is among those read as digits.
  unfold readInt64
  split
  · exact ⟨_, rfl⟩
  · exact ⟨_, rfl⟩
  · exact ⟨_, rfl⟩
  · exact hread ((List.mem_cons.1 hc).resolve_left hplus)
  · exact hread ((List.mem_cons.1 hc).resolve_left hminus)
  · exact hread hc

/-- An integer is read back from its digits. -/
theorem readInt64_chars (n : Int64) : readInt64 (Json.Number.ofInt64 n).chars = .ok n := by
  have hlow := n.le_toInt
  have hhigh := n.toInt_lt
  have hdigits : ∀ d ∈ Nat.toDigits 10 n.toInt.natAbs, d.isDigit = true :=
    fun d hd => isDigit_of_mem_toDigits hd
  have hvalue := @Nat.ofDigitChars_ten_toDigits n.toInt.natAbs
  rw [Json.Number.ofInt64, Json.Number.chars_int]
  by_cases hsign : n.toInt < 0
  · have hint : Int64.ofInt (-(n.toInt.natAbs : Int)) = n := by
      rw [show -(n.toInt.natAbs : Int) = n.toInt by omega, Int64.ofInt_toInt]
    rw [if_pos hsign, readInt64.eq_5 _ Nat.toDigits_ne_nil, readDigits_of_le hdigits (by omega),
      hvalue]
    exact congrArg Except.ok hint
  · have hint : Int64.ofInt (n.toInt.natAbs : Int) = n := by
      rw [show (n.toInt.natAbs : Int) = n.toInt by omega, Int64.ofInt_toInt]
    have hstart : ∀ {c rest}, c.isDigit = false → Nat.toDigits 10 n.toInt.natAbs ≠ c :: rest :=
      fun hc => ne_cons_of_digits hdigits hc _
    rw [if_neg hsign, readInt64.eq_6 _ Nat.toDigits_ne_nil (hstart rfl) (hstart rfl)
      (fun _ => hstart rfl) (fun _ => hstart rfl), readDigits_of_le hdigits (by omega), hvalue]
    exact congrArg Except.ok hint

end Integers

section Doubles

variable {first : Char} {rest : List Char}

/-- What starts with a digit is no word. -/
theorem isLowerOf_digit (hfirst : first.isDigit = true) {c : Char} (hc : c.isDigit = false)
    (letters : List Char) : isLowerOf (c :: letters) (first :: rest) = false := by
  rw [isLowerOf, List.map_cons, toLower_of_isDigit hfirst]
  refine beq_eq_false_iff_ne.2 fun heq => ?_
  rw [(List.cons.inj heq).1, hc] at hfirst
  cases hfirst

/-- It is read as a decimal. -/
theorem readUnsignedFloat?_digit (hfirst : first.isDigit = true) (negative : Bool) :
    readUnsignedFloat? negative (first :: rest) =
      (readDecimal? (first :: rest)).map (Decimal.toFloat negative) := by
  -- The words that stand for doubles all start with letters.
  have hinf : isLowerOf "inf".toList (first :: rest) = false :=
    @isLowerOf_digit first rest hfirst 'i' rfl "nf".toList
  have hinfinity : isLowerOf "infinity".toList (first :: rest) = false :=
    @isLowerOf_digit first rest hfirst 'i' rfl "nfinity".toList
  have hnan : isLowerOf "nan".toList (first :: rest) = false :=
    @isLowerOf_digit first rest hfirst 'n' rfl "an".toList
  rw [readUnsignedFloat?, hinf, hinfinity, hnan]
  rfl

/-- A sign is told from a digit. -/
theorem readFloat_minus {x : Float} (h : readUnsignedFloat? true rest = some x) :
    readFloat ('-' :: rest) = .ok x := by
  simp only [readFloat, h]

theorem readFloat_digit (hfirst : first.isDigit = true) {x : Float}
    (h : readUnsignedFloat? false (first :: rest) = some x) :
    readFloat (first :: rest) = .ok x := by
  unfold readFloat
  split
  · next heq =>
      rw [(List.cons.inj heq).1] at hfirst
      cases hfirst
  · next heq =>
      rw [(List.cons.inj heq).1] at hfirst
      cases hfirst
  · simp only [h]

end Doubles

end Text

namespace Json.Number

open Text (Numeral)

/-- The digits of a number are read as a decimal that has this number as the nearest
    double. -/
theorem readDecimal?_unsigned (n : Number) :
    ∃ d, Text.readDecimal? n.unsigned = some d ∧ d.toFloat n.isSigned = n.toFloat := by
  cases n with
  | int n h =>
      -- Digits alone are a decimal without a power of ten, and a ratio to one.
      have hchars : (int n h).unsigned = Numeral.chars ⟨Nat.toDigits 10 n.natAbs, [], none⟩ :=
        (List.append_nil _).symm
      have hdecimal : Numeral.decimal ⟨Nat.toDigits 10 n.natAbs, [], none⟩ = ⟨n.natAbs, 0⟩ :=
        Numeral.decimal_eq (by rw [List.append_nil, Nat.ofDigitChars_ten_toDigits]) rfl
      refine ⟨⟨n.natAbs, 0⟩, ?_, ?_⟩
      · rw [hchars, Numeral.readDecimal?_chars (Numeral.proper_toDigits _), hdecimal]
      · have hnearest : Decimal.nearest ⟨n.natAbs, 0⟩ = Binary64.nearest n.natAbs 1 := by
          rw [Decimal.nearest_eq]
          exact congrArg (Binary64.nearest · 1) (Nat.mul_one n.natAbs)
        rw [Decimal.toFloat, hnearest]
        rfl
  | float x h =>
      have hbits := (Binary64.isFinite_iff x).1 h
      rcases Layout.exists_numeral (Nat.le_of_lt hbits) with ⟨numeral, hproper, _, hnearest, hchars⟩
      refine ⟨numeral.decimal, ?_, ?_⟩
      · rw [unsigned_float, hchars, Numeral.readDecimal?_chars hproper]
      · rw [Decimal.toFloat, hnearest]
        exact Binary64.ofMagnitude_magnitude x

/-- Besides digits there can be a point, a mark and signs in the text of a number. -/
theorem forall_chars {p : Char → Prop} (hdigit : ∀ c : Char, c.isDigit = true → p c)
    (hpoint : p '.') (hmark : p 'e') (hplus : p '+') (hminus : p '-') (n : Number) :
    ∀ c ∈ n.chars, p c := by
  obtain ⟨numeral, hproper, hchars, _⟩ := n.unsigned_read
  have hunsigned : ∀ c ∈ n.unsigned, p c := by
    rw [hchars]
    exact Numeral.forall_chars hdigit hpoint hmark hplus hminus hproper
  rw [chars_eq]
  split
  · exact List.forall_mem_cons.2 ⟨hminus, hunsigned⟩
  · exact hunsigned

theorem trim_chars (n : Number) : Text.trim n.chars = n.chars :=
  Text.trim_of_not_blank <| @forall_chars (fun c => Text.isBlank c = false)
    (fun _ hdigit => Text.isBlank_of_isDigit hdigit) rfl rfl rfl rfl n

theorem map_toLower_chars (n : Number) : n.chars.map Char.toLower = n.chars := by
  have hlower : ∀ c ∈ n.chars, c.toLower = id c := @forall_chars (fun c => c.toLower = id c)
    (fun _ hdigit => Text.toLower_of_isDigit hdigit) rfl rfl rfl rfl n
  rw [List.map_congr_left hlower, List.map_id]

/-- Only a sign is written as one. -/
theorem isSigned_iff (n : Number) : n.isSigned = true ↔ n.chars.head? = some '-' := by
  obtain ⟨first, rest, hdigit, hcons⟩ := n.head?_unsigned
  rw [chars_eq, hcons]
  cases n.isSigned with
  | true => exact iff_of_true rfl rfl
  | false =>
      refine iff_of_false Bool.false_ne_true fun hhead => ?_
      rw [Option.some.inj hhead] at hdigit
      cases hdigit

/-- Different numbers are written differently. -/
theorem chars_injective : Function.Injective chars := by
  intro n m h
  have hsigned : n.isSigned = m.isSigned := by
    rw [Bool.eq_iff_iff, isSigned_iff, isSigned_iff, h]
  have hunsigned : n.unsigned = m.unsigned := by
    rw [chars_eq, chars_eq, hsigned] at h
    split at h
    · exact (List.cons.inj h).2
    · exact h
  obtain ⟨_, _, _, hn⟩ := n.unsigned_read
  obtain ⟨_, _, _, hm⟩ := m.unsigned_read
  rw [hsigned, hunsigned, hm] at hn
  exact (Option.some.inj hn).symm

theorem toInt64?_eq_some_iff {n : Number} {i : Int64} : n.toInt64? = some i ↔ n = ofInt64 i := by
  cases n with
  | int n h =>
      rw [toInt64?, Whole.toInt64?_eq_some_iff, ofInt64, Number.int.injEq, eq_comm]
  | float x h =>
      constructor
      · intro hnone
        cases hnone
      · intro hint
        cases hint

end Json.Number

namespace Text

/-- The text of a number is read as the double nearest to it. -/
theorem readFloat_chars (n : Json.Number) : readFloat n.chars = .ok n.toFloat := by
  obtain ⟨first, rest, hdigit, hcons⟩ := n.head?_unsigned
  rcases n.readDecimal?_unsigned with ⟨d, hread, hdouble⟩
  have hunsigned : readUnsignedFloat? n.isSigned (first :: rest) = some n.toFloat := by
    rw [readUnsignedFloat?_digit hdigit, ← hcons, hread, Option.map_some, hdouble]
  -- The sign is taken off first, and the rest starts with a digit.
  rw [Json.Number.chars_eq, hcons]
  cases hsigned : n.isSigned with
  | true =>
      rw [hsigned] at hunsigned
      exact readFloat_minus hunsigned
  | false =>
      rw [hsigned] at hunsigned
      exact readFloat_digit hdigit hunsigned

/-- The text of a finite double is not read as an integer. -/
theorem readInt64_float {x : Float} (h : x.isFinite = true) :
    ∃ fault, readInt64 (Json.Number.float x h).chars = .error fault := by
  have hbits := (Binary64.isFinite_iff x).1 h
  rcases Layout.exists_numeral (Nat.le_of_lt hbits) with ⟨numeral, _, hshape, _, hchars⟩
  rcases Numeral.exists_mark hshape with ⟨c, hc, hmark⟩
  have hmem : c ∈ (Json.Number.float x h).chars := by
    rw [Json.Number.chars_eq, Json.Number.unsigned_float, hchars]
    split
    · exact List.mem_cons_of_mem _ hc
    · exact hc
  rcases hmark with rfl | rfl
  · exact readInt64_of_other hmem rfl (by decide) (by decide)
  · exact readInt64_of_other hmem rfl (by decide) (by decide)

end Text

namespace Json

open Number

/-- Of two casts that fail neither has a value, whatever their errors are. -/
theorem errors_agree {α : Type} {err err' : EvalError} {w : α} :
    (Except.error err : Except EvalError α) = .ok w ↔
      (Except.error err' : Except EvalError α) = .ok w :=
  iff_of_false nofun nofun

theorem castInt64_text (n : Int64) : (Json.string (ofInt64 n).text).castInt64 = .ok n := by
  rw [castInt64, Number.text, String.toList_ofList, trim_chars, Text.readInt64_chars]

theorem castInt64_text_float {x : Float} (h : x.isFinite = true) :
    ∃ err, (Json.string (Number.float x h).text).castInt64 = .error err := by
  rcases Text.readInt64_float h with ⟨fault, hfault⟩
  rw [castInt64, Number.text, String.toList_ofList, trim_chars, hfault]
  exact ⟨_, rfl⟩

theorem castFloat_text (n : Number) : (Json.string n.text).castFloat = .ok n.toFloat := by
  rw [castFloat, Number.text, String.toList_ofList, trim_chars, Text.readFloat_chars]

/-- The text of a number is a truth value if the number is one. -/
theorem castBool_text (n : Number) (b : Bool) :
    (Json.number n).castBool = .ok b ↔ (Json.string n.text).castBool = .ok b := by
  -- Words are not read as doubles, and digits say which number it is.
  have hword : ∀ word, Text.readFloat word = .error .invalidFloat → n.chars ≠ word := by
    rintro word hread rfl
    rw [Text.readFloat_chars] at hread
    cases hread
  have htrue : n.chars ≠ "true".toList := hword _ rfl
  have hfalse : n.chars ≠ "false".toList := hword _ rfl
  have hone : n.chars = "1".toList ↔ n.toInt64? = some 1 := by
    rw [toInt64?_eq_some_iff, ← chars_injective.eq_iff]
    rfl
  have hzero : n.chars = "0".toList ↔ n.toInt64? = some 0 := by
    rw [toInt64?_eq_some_iff, ← chars_injective.eq_iff]
    rfl
  rw [castBool, castBool, Number.text, String.toList_ofList, trim_chars, map_toLower_chars]
  simp only [htrue, hfalse, hone, hzero, false_or]
  by_cases h1 : n.toInt64? = some 1
  · rw [if_pos h1, if_pos h1]
  by_cases h0 : n.toInt64? = some 0
  · rw [if_neg h1, if_pos h0, if_neg h1, if_pos h0]
  · rw [if_neg h1, if_neg h0, if_neg h1, if_neg h0]
    exact errors_agree

/-- A truth value is cast as its word is, which is no number. -/
theorem cast_boolText (b : Bool) (target : ScalarType) (w : Value) :
    (Json.bool b).cast target = .ok w ↔ (Json.string (Value.boolText b)).cast target = .ok w := by
  cases target with
  | int64 => cases b <;> exact errors_agree
  | float => cases b <;> exact errors_agree
  | string => exact Iff.rfl
  | bool => cases b <;> exact Iff.rfl

/-- A number is cast as its text is, unless it is to become an integer and is none. -/
theorem cast_text {n : Number} {target : ScalarType}
    (h : target = .int64 → ∃ i, n = ofInt64 i) (w : Value) :
    (Json.number n).cast target = .ok w ↔ (Json.string n.text).cast target = .ok w := by
  cases target with
  | int64 =>
      rcases h rfl with ⟨i, rfl⟩
      have hdirect : (Json.number (ofInt64 i)).cast .int64 = .ok (.int i) :=
        @Value.cast_toJson_type (.int i) nofun
      rw [hdirect, cast, castInt64_text]
      rfl
  | float =>
      rw [cast, cast, castFloat_text]
      rfl
  | string => exact Iff.rfl
  | bool =>
      have hbool := castBool_text n
      rw [cast, cast]
      cases hdirect : (Json.number n).castBool with
      | ok b => rw [(hbool b).1 hdirect]
      | error err =>
          cases htext : (Json.string n.text).castBool with
          | ok b => cases hdirect.symm.trans ((hbool b).2 htext)
          | error err' => exact errors_agree

end Json

/-- A double that is not finite is infinite or the one that is not a number, and has the
    word for it as its text. -/
theorem Layout.text_cases {x : Float} (h : x.isFinite = false) (l : Layout) :
    x = Float.ofBits 0x7FF8000000000000 ∧ l.text x = "NaN" ∨
      ∃ negative, x = Binary64.ofMagnitude negative Binary64.infinityBits ∧
        l.text x = if negative then "-inf" else "inf" := by
  cases hnan : x.isNaN with
  | true =>
      refine Or.inl ⟨Binary64.eq_ofBits_of_isNaN hnan, ?_⟩
      rw [text, hnan, if_pos rfl]
  | false =>
      refine Or.inr ⟨Binary64.isNegative x, ?_, ?_⟩
      · rw [← Binary64.magnitude_of_infinite h hnan, Binary64.ofMagnitude_magnitude]
      · rw [text, hnan, if_neg Bool.false_ne_true, h]
        cases Binary64.isNegative x with
        | true => rfl
        | false => rfl

/-- These words are read as the doubles that they stand for, and as nothing else. -/
theorem Json.cast_text_infinite {x : Float} (h : x.isFinite = false) (l : Layout) :
    (Json.string (l.text x)).castFloat = .ok x ∧
      (∃ err, (Json.string (l.text x)).castInt64 = .error err) ∧
      ∃ err, (Json.string (l.text x)).castBool = .error err := by
  rcases l.text_cases h with ⟨hx, htext⟩ | ⟨negative, hx, htext⟩
  · rw [htext, hx]
    exact ⟨rfl, ⟨_, rfl⟩, ⟨_, rfl⟩⟩
  · rw [htext, hx]
    cases negative with
    | true => exact ⟨rfl, ⟨_, rfl⟩, ⟨_, rfl⟩⟩
    | false => exact ⟨rfl, ⟨_, rfl⟩, ⟨_, rfl⟩⟩

/-- The text that a value is cast to. -/
def Value.written : Value → String
  | .int n => (Json.Number.ofInt64 n).text
  | .float x => Layout.json.text x
  | .string s => s
  | .bool b => boolText b

theorem Value.written_float {x : Float} (h : x.isFinite = true) :
    (Value.float x).written = (Json.Number.float x h).text := by
  rw [written, Layout.text, Binary64.isNaN_of_isFinite h, h, if_neg Bool.false_ne_true]
  dsimp only
  rw [if_pos rfl]
  rfl

namespace Caster

theorem castValue_string (s : String) (target : ScalarType) :
    (Caster.json : Caster Id).castValue (.string s) target =
      Outcome.ofExcept ((Json.string s).cast target) :=
  @castValue_json_toJson Id _ (.string s) nofun target

theorem castValue_written (v : Value) :
    (Caster.json : Caster Id).castValue v .string = pure (.string v.written) := by
  cases v with
  | int n => rfl
  | string s => rfl
  | bool b => rfl
  | float x =>
      by_cases hfinite : x.isFinite = true
      · have hcast : (Caster.json : Caster Id).castValue (.float x) .string =
            Outcome.ofExcept ((Value.float x).toJson.cast .string) :=
          castValue_json_toJson (fun y hy => Value.float.inj hy ▸ hfinite) .string
        rw [hcast, Value.toJson_float x hfinite, Value.written_float hfinite]
        rfl
      · have hinfinite : x.isFinite = false := Bool.not_eq_true _ ▸ hfinite
        have htext : Layout.plain.text x = Layout.json.text x := by
          simp only [Layout.text, hinfinite, Bool.false_eq_true, if_false]
        rw [castValue_infinite _ x .string ScalarType.noConfusion hinfinite, if_pos rfl, Value.text,
          htext, Value.written]

/-- A value is cast as its text is, unless a finite double is to become an integer. -/
theorem castValue_iff_written {v : Value} {target : ScalarType}
    (h : target = .int64 → ∀ x, v = .float x → x.isFinite = false) (w : Value) :
    (Caster.json : Caster Id).castValue v target = pure w ↔
      (Caster.json : Caster Id).castValue (.string v.written) target = pure w := by
  rw [castValue_string]
  cases v with
  | string s =>
      rw [castValue_string]
      exact Iff.rfl
  | int n =>
      rw [@castValue_json_toJson Id _ (.int n) nofun]
      exact Json.cast_text (fun _ => ⟨n, rfl⟩) w
  | bool b =>
      rw [@castValue_json_toJson Id _ (.bool b) nofun]
      exact Json.cast_boolText b target w
  | float x =>
      by_cases hfinite : x.isFinite = true
      · rw [castValue_json_toJson (fun y hy => Value.float.inj hy ▸ hfinite),
          Value.toJson_float x hfinite, Value.written_float hfinite]
        refine Json.cast_text (fun htarget => ?_) w
        rw [h htarget x rfl] at hfinite
        cases hfinite
      -- What is not finite has no form as data, and is not shown to the caster at all.
      · have hinfinite : x.isFinite = false := Bool.not_eq_true _ ▸ hfinite
        obtain ⟨hfloat, ⟨err, hint⟩, ⟨err', hbool⟩⟩ := Json.cast_text_infinite hinfinite Layout.json
        cases target with
        | float =>
            have hself : (Caster.json : Caster Id).castValue (.float x) .float = pure (.float x) :=
              castValue_self _ (.float x)
            rw [hself, Json.cast, Value.written, hfloat]
            exact Iff.rfl
        | string =>
            rw [castValue_written]
            exact Iff.rfl
        | int64 =>
            rw [castValue_infinite _ x .int64 ScalarType.noConfusion hinfinite, if_neg (by decide),
              Json.cast, Value.written, hint]
            exact Json.errors_agree
        | bool =>
            rw [castValue_infinite _ x .bool ScalarType.noConfusion hinfinite, if_neg (by decide),
              Json.cast, Value.written, hbool]
            exact Json.errors_agree

/-- Doubles are no truth values. -/
theorem castValue_float_bool (x : Float) (w : Value) :
    (Caster.json : Caster Id).castValue (.float x) .bool ≠ pure w := by
  have hwidens : (Value.float x).type.WidensTo .bool := ScalarType.noConfusion
  rcases @castValue_json_refusal? Id _ (.float x) .bool hwidens with ⟨hnone, _⟩ | ⟨_, _, hthrow⟩
  · cases hnone
  · rw [hthrow]
    exact nofun

/-- Every value can be cast to text, and the text is then cast to what the value itself is
    cast to, if it is cast to anything, so to its own type as the value that it was. A
    double is not cast to a truth value on either route. The exception are finite doubles
    as integers, which their texts are never cast to. -/
theorem casts_through_text (v : Value) :
    ∃ s, (Caster.json : Caster Id).castValue v .string = pure (.string s) ∧
      (∀ target, (target = .int64 → ∀ x, v = .float x → x.isFinite = false) →
        ∀ w, (Caster.json : Caster Id).castValue v target = pure w ↔
          (Caster.json : Caster Id).castValue (.string s) target = pure w) ∧
      (Caster.json : Caster Id).castValue (.string s) v.type = pure v ∧
      (∀ x, v = .float x → ∀ w, (Caster.json : Caster Id).castValue v .bool ≠ pure w ∧
        (Caster.json : Caster Id).castValue (.string s) .bool ≠ pure w) ∧
      ∀ x, v = .float x → x.isFinite = true →
        ∀ w, (Caster.json : Caster Id).castValue (.string s) .int64 ≠ pure w := by
  refine ⟨v.written, castValue_written v, fun target h w => castValue_iff_written h w, ?_, ?_, ?_⟩
  · refine (castValue_iff_written (fun htype x hx => ?_) v).1 (castValue_self _ v)
    rw [hx] at htype
    cases htype
  · rintro x rfl w
    have hroutes := @castValue_iff_written (.float x) .bool ScalarType.noConfusion w
    exact ⟨castValue_float_bool x w, fun htext => castValue_float_bool x w (hroutes.2 htext)⟩
  · rintro x rfl hfinite w
    rcases Json.castInt64_text_float hfinite with ⟨err, herr⟩
    rw [Value.written_float hfinite, castValue_string, Json.cast, herr]
    intro hvalue
    cases hvalue

/-- As an integer one is a truth value, and its text is it too. As a double it is none,
    and its text is only read as this double again. -/
theorem casts_through_text_one :
    let one := Binary64.ofMagnitude false 0x3FF0000000000000
    one.isFinite = true ∧
      (Caster.json : Caster Id).castValue (.int 1) .string = pure (.string "1") ∧
      (Caster.json : Caster Id).castValue (.string "1") .bool = pure (.bool true) ∧
      ∃ s, (Caster.json : Caster Id).castValue (.float one) .string = pure (.string s) ∧
        (Caster.json : Caster Id).castValue (.string s) .float = pure (.float one) ∧
        (∀ w, (Caster.json : Caster Id).castValue (.string s) .bool ≠ pure w) ∧
        ∀ w, (Caster.json : Caster Id).castValue (.string s) .int64 ≠ pure w := by
  intro one
  have hfinite : one.isFinite = true := by
    rw [Binary64.isFinite_iff, Binary64.magnitude_ofMagnitude _ (by decide)]
    decide
  have hdirect : (Caster.json : Caster Id).castValue (.int 1) .bool = pure (.bool true) := rfl
  have htext : (Caster.json : Caster Id).castValue (.int 1) .string = pure (.string "1") := rfl
  obtain ⟨s, hs, hroutes, _, _, _⟩ := casts_through_text (.int 1)
  obtain ⟨t, ht, _, hback, hbool, hint⟩ := casts_through_text (.float one)
  cases hs.symm.trans htext
  exact ⟨hfinite, htext, (hroutes .bool ScalarType.noConfusion _).1 hdirect, t, ht, hback,
    fun w => (hbool one rfl w).2, hint one rfl hfinite⟩

end Caster

end Criteria
