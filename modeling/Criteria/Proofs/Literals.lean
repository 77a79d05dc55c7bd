import Criteria.Proofs.Documents
import Mathlib.Data.List.TakeWhile

/-!
# Literals Read

Blanks, strings and numbers are read as the grammar has them.

A reader decides where a literal ends, and the grammar does not have to: it relates
text to every rest that a word of the grammar leaves. So two things are to be seen of
each kind of literal. What is read keeps to the grammar. And what the grammar has is
read, up to the same rest, where the rest is one that can stand there: a string ends
at its quote in any case, a number where nothing follows that could stand in one.

A string is first taken apart into pieces, and only then put together as text, since
half of a surrogate pair is a piece like others. The induction follows the pieces two
at a time, as they are put together.

## Theorems

* `Reader.blanks_skipBlanks`, `Reader.skipBlanks_of_blanks`: Blanks are skipped.
* `Reader.scanString?_sound`, `Reader.scanString?_complete`: Strings are read as the
  grammar has them.
* `Reader.unsigned_of_isNumeral`, `Reader.isNumeral_of_unsigned`: The test for numerals
  is what the grammar says of numbers.
* `Reader.scanNumber?_sound`, `Reader.scanNumber?_complete`: Numbers are read as the
  grammar has them.
-/

namespace Criteria

namespace Json

namespace Reader

open Grammar (Blanks Characters IsHex IsUnit Unsigned)

/-- Nothing is skipped in front of a character that is not blank. -/
theorem skipBlanks_cons {c : Char} (h : c ∉ [' ', '\t', '\n', '\r']) (rest : List Char) :
    skipBlanks (c :: rest) = c :: rest := by
  have hvisible : ¬(decide (c = ' ') || decide (c = '\t') || decide (c = '\n') ||
      decide (c = '\r')) = true := by
    simpa only [Bool.or_eq_true, decide_eq_true_eq, List.mem_cons, List.not_mem_nil, or_false,
      or_assoc] using h
  rw [skipBlanks, List.dropWhile_cons, if_neg hvisible]

theorem not_mem_of_isDigit {c : Char} {l : List Char} (h : c.isDigit = true)
    (hl : l.any Char.isDigit = false) : c ∉ l := by
  intro hc
  rw [List.any_eq_true.2 ⟨c, hc, h⟩] at hl
  cases hl

theorem blanks_skipBlanks (text : List Char) : Blanks text (skipBlanks text) := by
  induction text with
  | nil => exact .none []
  | cons c text ih =>
      unfold skipBlanks at *
      rw [List.dropWhile_cons]
      split
      · next hblank =>
          refine .more ?_ ih
          simpa only [Bool.or_eq_true, decide_eq_true_eq, List.mem_cons, List.not_mem_nil, or_false,
            or_assoc] using hblank
      · exact .none _

/-- Blanks in front of what is left when blanks are skipped. -/
theorem blanks_of_skipBlanks {text rest : List Char} (h : skipBlanks text = rest) :
    Blanks text rest := by
  rw [← h]
  exact blanks_skipBlanks text

/-- Where a word begins behind blanks does not matter once blanks are skipped. -/
theorem skipBlanks_eq {text rest : List Char} (h : Blanks text rest) :
    skipBlanks text = skipBlanks rest := by
  induction h with
  | none => rfl
  | @more c text rest hc _ ih =>
      have hblank : (decide (c = ' ') || decide (c = '\t') || decide (c = '\n') ||
          decide (c = '\r')) = true := by
        simpa only [Bool.or_eq_true, decide_eq_true_eq, List.mem_cons, List.not_mem_nil, or_false,
          or_assoc] using hc
      rw [← ih, skipBlanks, List.dropWhile_cons, if_pos hblank]
      rfl

theorem skipBlanks_of_blanks {c : Char} {text rest : List Char} (h : Blanks text (c :: rest))
    (hc : c ∉ [' ', '\t', '\n', '\r']) : skipBlanks text = c :: rest := by
  rw [skipBlanks_eq h, skipBlanks_cons hc]

theorem hexValue?_of_isHex {c : Char} {n : Nat} (h : IsHex c n) : hexValue? c = some n := by
  have hlower : ∀ n < 16, hexValue? (Nat.digitChar n) = some n := by decide
  have hupper : ∀ n < 16, hexValue? (Nat.digitChar n).toUpper = some n := by decide
  obtain ⟨hn, rfl | rfl⟩ := h
  · exact hlower n hn
  · exact hupper n hn

theorem isHex_of_hexValue? {c : Char} {n : Nat} (h : hexValue? c = some n) : IsHex c n := by
  have hdecimal : ∀ n < 10, Char.ofNat (48 + n) = Nat.digitChar n := by decide
  have hlower : ∀ n < 16, 10 ≤ n → Char.ofNat (87 + n) = Nat.digitChar n := by decide
  have hupper : ∀ n < 16, 10 ≤ n → Char.ofNat (55 + n) = (Nat.digitChar n).toUpper := by decide
  unfold hexValue? at h
  split at h
  · next hrange =>
      have hlow : 48 ≤ c.toNat := hrange.1
      have hhigh : c.toNat ≤ 57 := hrange.2
      have hn : c.toNat - 48 = n := Option.some.inj h
      have hc : c = Nat.digitChar n := by
        rw [← hdecimal n (by omega), ← hn, Nat.add_sub_cancel' hlow, Char.ofNat_toNat]
      exact ⟨by omega, Or.inl hc⟩
  split at h
  · next hrange =>
      have hlow : 97 ≤ c.toNat := hrange.1
      have hhigh : c.toNat ≤ 102 := hrange.2
      have hn : c.toNat - 97 + 10 = n := Option.some.inj h
      have hc : c = Nat.digitChar n := by
        rw [← hlower n (by omega) (by omega), show 87 + n = c.toNat by omega, Char.ofNat_toNat]
      exact ⟨by omega, Or.inl hc⟩
  split at h
  · next hrange =>
      have hlow : 65 ≤ c.toNat := hrange.1
      have hhigh : c.toNat ≤ 70 := hrange.2
      have hn : c.toNat - 65 + 10 = n := Option.some.inj h
      have hc : c = (Nat.digitChar n).toUpper := by
        rw [← hupper n (by omega) (by omega), show 55 + n = c.toNat by omega, Char.ofNat_toNat]
      exact ⟨by omega, Or.inr hc⟩
  · cases h

theorem hexUnit?_eq_some_iff {a b c d : Char} {n : Nat} :
    hexUnit? a b c d = some n ↔ IsUnit a b c d n := by
  simp only [hexUnit?, Option.bind_eq_bind, Option.bind_eq_some_iff, Option.pure_def,
    Option.some_inj]
  constructor
  · rintro ⟨w, ha, x, hb, y, hc, z, hd, rfl⟩
    exact ⟨w, x, y, z, isHex_of_hexValue? ha, isHex_of_hexValue? hb, isHex_of_hexValue? hc,
      isHex_of_hexValue? hd, rfl⟩
  · rintro ⟨w, x, y, z, ha, hb, hc, hd, rfl⟩
    exact ⟨w, hexValue?_of_isHex ha, x, hexValue?_of_isHex hb, y, hexValue?_of_isHex hc, z,
      hexValue?_of_isHex hd, rfl⟩

theorem escaped?_of_mem {a c : Char} (h : (a, c) ∈ Grammar.letters) :
    escaped? a = some c ∧ a ≠ 'u' := by
  have hall : ∀ p ∈ Grammar.letters, escaped? p.1 = some p.2 ∧ p.1 ≠ 'u' := by decide
  exact hall (a, c) h

theorem mem_of_escaped? {a c : Char} (h : escaped? a = some c) : (a, c) ∈ Grammar.letters := by
  unfold escaped? at h
  split at h
  case h_9 => cases h
  all_goals
    cases h
    decide

/-- What a backslash and a letter are read as. -/
theorem scanString?_letter {letter c : Char} (h : escaped? letter = some c) (hu : letter ≠ 'u')
    (rest : List Char) : scanString? ('\\' :: letter :: rest) =
      (scanString? rest).map fun read => (.char c :: read.1, read.2) := by
  rw [scanString?]
  · rw [h, Option.bind_eq_bind, Option.bind_some]
    cases scanString? rest <;> rfl
  -- Behind `u` the number of a unit would be read.
  · exact fun _ _ _ _ _ hletter _ => hu hletter

theorem scanString?_unit {a b c d : Char} {n : Nat} (h : hexUnit? a b c d = some n)
    (rest : List Char) : scanString? ('\\' :: 'u' :: a :: b :: c :: d :: rest) =
      (scanString? rest).map fun read => (.unit n :: read.1, read.2) := by
  rw [scanString?, h, Option.bind_eq_bind, Option.bind_some]
  cases scanString? rest <;> rfl

theorem scanString?_plain {c : Char} (hcontrol : 0x20 ≤ c.toNat) (hquote : c ≠ '"')
    (hbackslash : c ≠ '\\') (rest : List Char) : scanString? (c :: rest) =
      (scanString? rest).map fun read => (.char c :: read.1, read.2) := by
  rw [scanString?]
  · rw [if_neg (not_or.2 ⟨Nat.not_lt.2 hcontrol, hbackslash⟩)]
    cases scanString? rest <;> rfl
  · exact hquote
  · exact fun _ _ _ _ _ h _ => hbackslash h
  · exact fun _ _ h _ => hbackslash h

/-- A unit that is not half of a pair is a character by itself. -/
theorem assemble?_unit {n : Nat} (h : n < 0xD800 ∨ 0xE000 ≤ n) (pieces : List Piece) :
    assemble? (.unit n :: pieces) = (assemble? pieces).map (Char.ofNat n :: ·) := by
  have hhigh : ¬(0xD800 ≤ n ∧ n < 0xDC00) := by omega
  have hlow : ¬(0xDC00 ≤ n ∧ n < 0xE000) := by omega
  have hhalf : ¬(0xD800 ≤ n ∧ n < 0xE000) := by omega
  -- Another unit may follow, but this one is not half of a pair with it.
  rcases pieces with _ | ⟨⟨d⟩ | ⟨low⟩, pieces⟩
  · simp only [assemble?, if_neg hhalf]
  · simp only [assemble?, if_neg hhalf]
  · rw [assemble?, if_neg hhigh, if_neg hlow]

/-- What the grammar has as a string is read as the text it stands for. -/
theorem scanString?_complete {text cs rest : List Char} (h : Characters text cs rest) :
    ∃ pieces, scanString? text = some (pieces, rest) ∧ assemble? pieces = some cs := by
  induction h with
  | close rest => exact ⟨[], rfl, rfl⟩
  | @plain c _ _ _ hcontrol hquote hbackslash _ ih =>
      obtain ⟨pieces, hscan, hassemble⟩ := ih
      refine ⟨.char c :: pieces, ?_, ?_⟩
      · rw [scanString?_plain hcontrol hquote hbackslash, hscan, Option.map_some]
      · rw [assemble?, hassemble, Option.map_some]
  | @letter _ c _ _ _ hletter _ ih =>
      obtain ⟨pieces, hscan, hassemble⟩ := ih
      obtain ⟨hescaped, hu⟩ := escaped?_of_mem hletter
      refine ⟨.char c :: pieces, ?_, ?_⟩
      · rw [scanString?_letter hescaped hu, hscan, Option.map_some]
      · rw [assemble?, hassemble, Option.map_some]
  | @unit _ _ _ _ n _ _ _ hunit hwhole _ ih =>
      obtain ⟨pieces, hscan, hassemble⟩ := ih
      refine ⟨.unit n :: pieces, ?_, ?_⟩
      · rw [scanString?_unit (hexUnit?_eq_some_iff.2 hunit), hscan, Option.map_some]
      · rw [assemble?_unit hwhole, hassemble, Option.map_some]
  | @pair _ _ _ _ _ _ _ _ high low _ _ _ hunit hunit' hhigh hlow _ ih =>
      obtain ⟨pieces, hscan, hassemble⟩ := ih
      refine ⟨.unit high :: .unit low :: pieces, ?_, ?_⟩
      · rw [scanString?_unit (hexUnit?_eq_some_iff.2 hunit),
          scanString?_unit (hexUnit?_eq_some_iff.2 hunit'), hscan, Option.map_some, Option.map_some]
      · rw [assemble?, if_pos hhigh, if_pos hlow, hassemble, Option.map_some]

/-- How the first piece of a string was spelled. -/
theorem scanString?_first {text rest : List Char} {pieces : List Piece}
    (h : scanString? text = some (pieces, rest)) :
    match pieces with
    | [] => text = '"' :: rest
    | .char c :: pieces => ∃ text', scanString? text' = some (pieces, rest) ∧
        ∀ cs, Characters text' cs rest → Characters text (c :: cs) rest
    | .unit n :: pieces => ∃ a b c d text', text = '\\' :: 'u' :: a :: b :: c :: d :: text' ∧
        IsUnit a b c d n ∧ scanString? text' = some (pieces, rest) := by
  unfold scanString? at h
  split at h
  · cases h
  · cases h
    rfl
  · next a b c d text _ =>
      simp only [Option.bind_eq_bind, Option.bind_eq_some_iff] at h
      obtain ⟨n, hunit, read, hread, hrest⟩ := h
      cases hrest
      exact ⟨a, b, c, d, text, rfl, hexUnit?_eq_some_iff.1 hunit, hread⟩
  · next a text _ _ =>
      simp only [Option.bind_eq_bind, Option.bind_eq_some_iff] at h
      obtain ⟨c, hletter, read, hread, hrest⟩ := h
      cases hrest
      exact ⟨text, hread, fun cs hcs => .letter (mem_of_escaped? hletter) hcs⟩
  · next c text hquote _ _ _ =>
      split at h
      · cases h
      · next hplain =>
          simp only [Option.bind_eq_bind, Option.bind_eq_some_iff] at h
          obtain ⟨read, hread, hrest⟩ := h
          cases hrest
          obtain ⟨hcontrol, hbackslash⟩ := not_or.1 hplain
          exact ⟨text, hread, fun cs hcs => .plain (Nat.not_lt.1 hcontrol) hquote hbackslash hcs⟩

/-- What is read as a string keeps to the grammar, if it denotes text. -/
theorem scanString?_sound {text cs rest : List Char} {pieces : List Piece}
    (h : scanString? text = some (pieces, rest)) (hassemble : assemble? pieces = some cs) :
    Characters text cs rest := by
  induction pieces using assemble?.induct generalizing text cs with
  | case1 =>
      cases hassemble
      rw [scanString?_first h]
      exact .close rest
  | case2 c pieces ih =>
      obtain ⟨text', hread, hcharacters⟩ := scanString?_first h
      rw [assemble?, Option.map_eq_some_iff] at hassemble
      obtain ⟨cs', hcs', rfl⟩ := hassemble
      exact hcharacters cs' (ih hread hcs')
  | case3 high low pieces hhigh hlow ih =>
      obtain ⟨a, b, c, d, text', rfl, hunit, hread⟩ := scanString?_first h
      obtain ⟨a', b', c', d', text'', rfl, hunit', hread'⟩ := scanString?_first hread
      rw [assemble?, if_pos hhigh, if_pos hlow, Option.map_eq_some_iff] at hassemble
      obtain ⟨cs', hcs', rfl⟩ := hassemble
      exact .pair hunit hunit' hhigh hlow (ih hread' hcs')
  -- Half of a pair alone denotes nothing.
  | case4 high low pieces hhigh hlow =>
      rw [assemble?, if_pos hhigh, if_neg hlow] at hassemble
      cases hassemble
  | case5 high low pieces hhigh hlow =>
      rw [assemble?, if_neg hhigh, if_pos hlow] at hassemble
      cases hassemble
  | case6 high low pieces hhigh hlow ih =>
      obtain ⟨a, b, c, d, text', rfl, hunit, hread⟩ := scanString?_first h
      have hwhole : high < 0xD800 ∨ 0xE000 ≤ high := by omega
      rw [assemble?_unit hwhole, Option.map_eq_some_iff] at hassemble
      obtain ⟨cs', hcs', rfl⟩ := hassemble
      exact .unit hunit hwhole (ih hread hcs')
  | case7 n pieces hlast hhalf =>
      rw [assemble?, if_pos hhalf] at hassemble
      · cases hassemble
      · exact hlast
  | case8 n pieces hlast hhalf ih =>
      obtain ⟨a, b, c, d, text', rfl, hunit, hread⟩ := scanString?_first h
      have hwhole : n < 0xD800 ∨ 0xE000 ≤ n := by omega
      rw [assemble?_unit hwhole, Option.map_eq_some_iff] at hassemble
      obtain ⟨cs', hcs', rfl⟩ := hassemble
      exact .unit hunit hwhole (ih hread hcs')

theorem digits_of_readNat? {text : List Char} {n : Nat} (h : Text.readNat? text = some n) :
    Grammar.Digits text := by
  unfold Text.readNat? at h
  split at h
  · next hdigits => exact ⟨hdigits.1, List.all_eq_true.1 hdigits.2⟩
  · cases h

/-- What is read as a power of ten behind its mark is digits with an optional sign. -/
theorem digits_of_readExponent? {text : List Char} {e : Int}
    (h : Text.readExponent? text = some e) :
    ∃ sign digits, sign ∈ [[], ['+'], ['-']] ∧ Grammar.Digits digits ∧ text = sign ++ digits := by
  unfold Text.readExponent? at h
  split at h <;>
    simp only [Option.map_eq_some_iff, Option.bind_eq_bind, Option.bind_eq_some_iff] at h <;>
    obtain ⟨_, ⟨n, hread, -⟩, -⟩ := h
  · exact ⟨['-'], _, by decide, digits_of_readNat? hread, rfl⟩
  · exact ⟨['+'], _, by decide, digits_of_readNat? hread, rfl⟩
  · exact ⟨[], text, by decide, digits_of_readNat? hread, rfl⟩

theorem spanDigits_eq (text : List Char) :
    text = (Text.spanDigits text).1 ++ (Text.spanDigits text).2 ∧
      ∀ c ∈ (Text.spanDigits text).1, c.isDigit = true :=
  ⟨List.takeWhile_append_dropWhile.symm, fun _ hc => List.mem_takeWhile_imp hc⟩

theorem whole_of_startsNumeral {whole : List Char} (h : Number.startsNumeral whole = true)
    (hdigits : ∀ c ∈ whole, c.isDigit = true) : Grammar.Whole whole := by
  unfold Number.startsNumeral at h
  split at h
  · cases h
  · exact ⟨⟨List.cons_ne_nil _ _, hdigits⟩, fun _ => rfl⟩
  · next first rest _ =>
      refine ⟨⟨List.cons_ne_nil _ _, hdigits⟩, fun hzero => ?_⟩
      exact absurd (Option.some.inj hzero) (of_decide_eq_true h)

theorem fraction_of_skipFraction {behind : List Char}
    (h : (Number.skipFraction behind).1 = true) :
    ∃ fraction, Grammar.Fraction fraction ∧
      behind = fraction ++ (Number.skipFraction behind).2 := by
  unfold Number.skipFraction at *
  split at h
  · next rest =>
      obtain ⟨hrest, hdigits⟩ := spanDigits_eq rest
      have hnonempty : (Text.spanDigits rest).1 ≠ [] := by
        rw [← List.isEmpty_eq_false_iff, ← Bool.not_eq_true']
        exact h
      exact ⟨_, Or.inr ⟨_, ⟨hnonempty, hdigits⟩, rfl⟩, congrArg _ hrest⟩
  · exact ⟨[], Or.inl rfl, rfl⟩

theorem exponent_of_endsNumeral {behind : List Char} (h : Number.endsNumeral behind = true) :
    Grammar.Exponent behind := by
  unfold Number.endsNumeral at h
  split at h
  · exact Or.inl rfl
  · next mark rest =>
      rw [Bool.and_eq_true, Bool.or_eq_true, decide_eq_true_iff, decide_eq_true_iff] at h
      obtain ⟨e, hread⟩ := Option.isSome_iff_exists.1 h.2
      obtain ⟨sign, digits, hsign, hdigits, hrest⟩ := digits_of_readExponent? hread
      refine Or.inr ⟨mark, sign, digits, ?_, hsign, hdigits, congrArg _ hrest⟩
      simpa only [List.mem_cons, List.not_mem_nil, or_false] using h.1

/-- The test for numerals keeps to the grammar. -/
theorem unsigned_of_isNumeral {text : List Char} (h : Number.isNumeral text = true) :
    Unsigned text := by
  obtain ⟨htext, hdigits⟩ := spanDigits_eq text
  rw [Number.isNumeral, Bool.and_eq_true, Bool.and_eq_true] at h
  obtain ⟨⟨hstart, hpoint⟩, hmark⟩ := h
  obtain ⟨fraction, hfraction, hbehind⟩ := fraction_of_skipFraction hpoint
  exact ⟨_, fraction, _, whole_of_startsNumeral hstart hdigits, hfraction,
    exponent_of_endsNumeral hmark, htext.trans (congrArg _ hbehind)⟩

theorem readNat?_of_digits {text : List Char} (h : Grammar.Digits text) :
    Text.readNat? text = some (Nat.ofDigitChars 10 text 0) :=
  if_pos ⟨h.1, List.all_eq_true.2 h.2⟩

theorem readExponent?_of_digits {sign digits : List Char} (hsign : sign ∈ [[], ['+'], ['-']])
    (hdigits : Grammar.Digits digits) : (Text.readExponent? (sign ++ digits)).isSome = true := by
  have hread := readNat?_of_digits hdigits
  simp only [List.mem_cons, List.not_mem_nil, or_false] at hsign
  rcases hsign with rfl | rfl | rfl
  · -- Digits start with no sign.
    rw [List.nil_append, Text.readExponent?, hread]
    · rfl
    · exact fun rest => Text.ne_cons_of_digits hdigits.2 rfl rest
    · exact fun rest => Text.ne_cons_of_digits hdigits.2 rfl rest
  · rw [List.singleton_append, Text.readExponent?, hread]
    rfl
  · rw [List.singleton_append, Text.readExponent?, hread]
    rfl

theorem startsNumeral_of_whole {whole : List Char} (h : Grammar.Whole whole) :
    Number.startsNumeral whole = true := by
  unfold Number.startsNumeral
  split
  · exact absurd rfl h.1.1
  · rfl
  · next first rest hother =>
      refine decide_eq_true fun hzero => ?_
      subst hzero
      exact hother rfl (List.cons.inj (h.2 rfl)).2

theorem endsNumeral_of_exponent {behind : List Char} (h : Grammar.Exponent behind) :
    Number.endsNumeral behind = true := by
  rcases h with rfl | ⟨mark, sign, digits, hmark, hsign, hdigits, rfl⟩
  · rfl
  · have hmark : mark = 'e' ∨ mark = 'E' := by
      simpa only [List.mem_cons, List.not_mem_nil, or_false] using hmark
    rw [Number.endsNumeral, Bool.and_eq_true, Bool.or_eq_true, decide_eq_true_iff,
      decide_eq_true_iff]
    exact ⟨hmark, readExponent?_of_digits hsign hdigits⟩

/-- A power of ten starts with its mark. -/
theorem head?_exponent {behind : List Char} (h : Grammar.Exponent behind) :
    ∀ c ∈ behind.head?, c = 'e' ∨ c = 'E' := by
  rcases h with rfl | ⟨mark, sign, digits, hmark, hsign, hdigits, rfl⟩
  · exact fun c hc => absurd hc (Option.not_mem_none c)
  · intro c hc
    rw [← Option.some.inj hc]
    simpa only [List.mem_cons, List.not_mem_nil, or_false] using hmark

theorem isDigit_head?_exponent {behind : List Char} (h : Grammar.Exponent behind) :
    ∀ c ∈ behind.head?, c.isDigit = false := by
  intro c hc
  rcases head?_exponent h c hc with rfl | rfl <;> rfl

theorem skipFraction_of_fraction {fraction behind : List Char}
    (hfraction : Grammar.Fraction fraction) (hexponent : Grammar.Exponent behind) :
    Number.skipFraction (fraction ++ behind) = (true, behind) := by
  rcases hfraction with rfl | ⟨digits, hdigits, rfl⟩
  · rw [List.nil_append, Number.skipFraction]
    rintro rest rfl
    exact absurd (head?_exponent hexponent '.' rfl) (by decide)
  · have hspan := Text.spanDigits_append hdigits.2 (isDigit_head?_exponent hexponent)
    have hsome : digits.isEmpty = false := List.isEmpty_eq_false_iff.2 hdigits.1
    rw [List.cons_append, Number.skipFraction, hspan, hsome, Bool.not_false]

/-- All that the grammar has as a number passes the test for numerals. -/
theorem isNumeral_of_unsigned {text : List Char} (h : Unsigned text) :
    Number.isNumeral text = true := by
  obtain ⟨whole, fraction, exponent, hwhole, hfraction, hexponent, rfl⟩ := h
  have hhead : ∀ c ∈ (fraction ++ exponent).head?, c.isDigit = false := by
    rcases hfraction with rfl | ⟨digits, -, rfl⟩
    · exact isDigit_head?_exponent hexponent
    · intro c hc
      rw [← Option.some.inj hc]
      rfl
  rw [Number.isNumeral, Text.spanDigits_append hwhole.1.2 hhead]
  dsimp only
  rw [skipFraction_of_fraction hfraction hexponent, startsNumeral_of_whole hwhole,
    endsNumeral_of_exponent hexponent]
  rfl

/-- All characters of a number can stand in one. -/
theorem inNumber_of_unsigned {text : List Char} (h : Unsigned text) :
    ∀ c ∈ text, inNumber c = true := by
  have hdigit : ∀ c : Char, c.isDigit = true → inNumber c = true := by
    intro c hc
    simp only [inNumber, hc, Bool.true_or]
  obtain ⟨whole, fraction, exponent, hwhole, hfraction, hexponent, rfl⟩ := h
  intro c hc
  rcases List.mem_append.1 hc with hc | hc
  · exact hdigit c (hwhole.1.2 c hc)
  rcases List.mem_append.1 hc with hc | hc
  · rcases hfraction with rfl | ⟨digits, hdigits, rfl⟩
    · cases hc
    · rcases List.mem_cons.1 hc with rfl | hc
      · rfl
      · exact hdigit c (hdigits.2 c hc)
  · rcases hexponent with rfl | ⟨mark, sign, digits, hmark, hsign, hdigits, rfl⟩
    · cases hc
    simp only [List.mem_cons, List.not_mem_nil, or_false] at hmark hsign
    rcases List.mem_cons.1 hc with rfl | hc
    · rcases hmark with rfl | rfl <;> rfl
    rcases List.mem_append.1 hc with hc | hc
    · rcases hsign with rfl | rfl | rfl
      · cases hc
      · rw [List.mem_singleton.1 hc]
        rfl
      · rw [List.mem_singleton.1 hc]
        rfl
    · exact hdigit c (hdigits.2 c hc)

/-- A number is read up to its end, if nothing follows that could stand in one. -/
theorem scanNumber?_complete {negative : Bool} {literal rest : List Char} {n : Number}
    (hliteral : Unsigned literal) (hn : NumberFormat.nearest.number? negative literal = some n)
    (hrest : ∀ c ∈ rest.head?, inNumber c = false) :
    scanNumber? negative (literal ++ rest) = some (.number n, rest) := by
  have hall := inNumber_of_unsigned hliteral
  have hnone : rest.takeWhile inNumber = [] ∧ rest.dropWhile inNumber = rest := by
    cases rest with
    | nil => exact ⟨rfl, rfl⟩
    | cons c cs =>
        have hc : inNumber c = false := hrest c rfl
        rw [List.takeWhile_cons, List.dropWhile_cons, hc]
        exact ⟨rfl, rfl⟩
  have htake : (literal ++ rest).takeWhile inNumber = literal := by
    rw [List.takeWhile_append_of_pos hall, hnone.1, List.append_nil]
  have hdrop : (literal ++ rest).dropWhile inNumber = rest := by
    rw [List.dropWhile_append_of_pos hall, hnone.2]
  simp only [scanNumber?, htake, hdrop, isNumeral_of_unsigned hliteral, hn, if_true]

/-- What is read as a number keeps to the grammar. A numeral that stands for none is
    void. -/
theorem scanNumber?_sound {negative : Bool} {text rest : List Char} {d : Document}
    (h : scanNumber? negative text = some (d, rest)) (hd : d.Definite) :
    ∃ literal n, d = .number n ∧ Unsigned literal ∧
      NumberFormat.nearest.number? negative literal = some n ∧ text = literal ++ rest := by
  unfold scanNumber? at h
  dsimp only at h
  split at h
  · next hnumeral =>
      obtain ⟨hvalue, hrest⟩ := Prod.mk.inj (Option.some.inj h)
      split at hvalue
      · next n hn =>
          refine ⟨_, n, hvalue.symm, unsigned_of_isNumeral hnumeral, hn, ?_⟩
          rw [← hrest, List.takeWhile_append_dropWhile]
      · rw [← hvalue] at hd
        cases hd
  · cases h

end Reader

end Json

end Criteria
