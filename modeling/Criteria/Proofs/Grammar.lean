import Criteria.Json.Library

/-!
# The Grammar of JSON Text

What JSON text spells, without regard to how it is read.

The grammar is that of the JSON standard. Each rule relates text to what it spells and to
what is left of the text behind a word of the rule, so that words are put together
by letting one begin where another has ended. Text may have blanks in it wherever
the grammar has them, characters may be escaped or not, and a number may be spelled
in more than one way. What a number is depends on the format of numbers, which is a
parameter; everything else the grammar decides by itself.

The grammar is where a library for JSON text and its users meet. A library is taken
for what it promises about spelling (`Library.Lawful`), and how it goes about it is
nobody's business.

## Main definitions

* `Grammar.Blanks`, `Grammar.Characters`, `Grammar.Unsigned`: The parts without
  brackets.
* `Grammar.Value`, `Grammar.Items`, `Grammar.Member`, `Grammar.Members`: Values, and
  what stands between brackets.
* `Spells`: A text spells a document.

## Theorems

* `Grammar.Items.padded`, `Grammar.Member.padded`, `Grammar.Members.padded`: Blanks may
  stand in front of what is between brackets.
* `Grammar.Value.head_object`: An object starts with a brace.
* `Grammar.Value.length_lt`: A value is not empty.
-/

namespace Criteria

namespace Json

namespace Grammar

/-- Any number of blanks. -/
inductive Blanks : List Char → List Char → Prop where
  | none (rest : List Char) : Blanks rest rest
  | more {c : Char} {text rest : List Char} (hc : c ∈ [' ', '\t', '\n', '\r'])
      (h : Blanks text rest) : Blanks (c :: text) rest

/-- A digit of base sixteen in either case, and its value. -/
def IsHex (c : Char) (n : Nat) : Prop :=
  n < 16 ∧ (c = Nat.digitChar n ∨ c = (Nat.digitChar n).toUpper)

/-- Four digits of base sixteen, and the number they make up. -/
def IsUnit (a b c d : Char) (n : Nat) : Prop :=
  ∃ w x y z, IsHex a w ∧ IsHex b x ∧ IsHex c y ∧ IsHex d z ∧ n = ((w * 16 + x) * 16 + y) * 16 + z

/-- The letters that can follow a backslash, and what they stand for. -/
def letters : List (Char × Char) :=
  [('"', '"'), ('\\', '\\'), ('/', '/'), ('b', '\x08'), ('f', '\x0c'), ('n', '\n'), ('r', '\r'),
    ('t', '\t')]

/-- The characters of a string up to its closing quote, and the text they stand for.
    A unit of sixteen bits is a character by itself, or one together with another if
    the two are a surrogate pair. -/
inductive Characters : List Char → List Char → List Char → Prop where
  | close (rest : List Char) : Characters ('"' :: rest) [] rest
  | plain {c : Char} {text cs rest : List Char} (hcontrol : 0x20 ≤ c.toNat) (hquote : c ≠ '"')
      (hbackslash : c ≠ '\\') (h : Characters text cs rest) : Characters (c :: text) (c :: cs) rest
  | letter {a c : Char} {text cs rest : List Char} (hletter : (a, c) ∈ letters)
      (h : Characters text cs rest) : Characters ('\\' :: a :: text) (c :: cs) rest
  | unit {a b c d : Char} {n : Nat} {text cs rest : List Char} (hunit : IsUnit a b c d n)
      (hwhole : n < 0xD800 ∨ 0xE000 ≤ n) (h : Characters text cs rest) :
      Characters ('\\' :: 'u' :: a :: b :: c :: d :: text) (Char.ofNat n :: cs) rest
  | pair {a b c d a' b' c' d' : Char} {high low : Nat} {text cs rest : List Char}
      (hunit : IsUnit a b c d high) (hunit' : IsUnit a' b' c' d' low)
      (hhigh : 0xD800 ≤ high ∧ high < 0xDC00) (hlow : 0xDC00 ≤ low ∧ low < 0xE000)
      (h : Characters text cs rest) :
      Characters
        ('\\' :: 'u' :: a :: b :: c :: d :: '\\' :: 'u' :: a' :: b' :: c' :: d' :: text)
        (Char.ofNat (0x10000 + (high - 0xD800) * 0x400 + (low - 0xDC00)) :: cs) rest

/-- At least one digit. -/
def Digits (text : List Char) : Prop :=
  text ≠ [] ∧ ∀ c ∈ text, c.isDigit = true

/-- The digits before the point: no zero stands in front of another digit. -/
def Whole (text : List Char) : Prop :=
  Digits text ∧ (text.head? = some '0' → text = ['0'])

/-- The point and the digits behind it, or nothing. -/
def Fraction (text : List Char) : Prop :=
  text = [] ∨ ∃ digits, Digits digits ∧ text = '.' :: digits

/-- The power of ten with its mark and an optional sign, or nothing. -/
def Exponent (text : List Char) : Prop :=
  text = [] ∨ ∃ mark sign digits, mark ∈ ['e', 'E'] ∧ sign ∈ [[], ['+'], ['-']] ∧ Digits digits ∧
    text = mark :: (sign ++ digits)

/-- A number without its sign. -/
def Unsigned (text : List Char) : Prop :=
  ∃ whole fraction exponent, Whole whole ∧ Fraction fraction ∧ Exponent exponent ∧
    text = whole ++ (fraction ++ exponent)

mutual

/-- A value. -/
inductive Value (N : NumberFormat) : List Char → Document → List Char → Prop where
  | null (rest : List Char) : Value N ('n' :: 'u' :: 'l' :: 'l' :: rest) .null rest
  | true (rest : List Char) : Value N ('t' :: 'r' :: 'u' :: 'e' :: rest) (.bool true) rest
  | false (rest : List Char) :
      Value N ('f' :: 'a' :: 'l' :: 's' :: 'e' :: rest) (.bool false) rest
  | string {text cs rest : List Char} (h : Characters text cs rest) :
      Value N ('"' :: text) (.string (String.ofList cs)) rest
  | positive {literal : List Char} {n : Number} (rest : List Char) (hliteral : Unsigned literal)
      (hn : N.number? false literal = some n) : Value N (literal ++ rest) (.number n) rest
  | negative {literal : List Char} {n : Number} (rest : List Char) (hliteral : Unsigned literal)
      (hn : N.number? true literal = some n) : Value N ('-' :: (literal ++ rest)) (.number n) rest
  | noItems {text rest : List Char} (h : Blanks text (']' :: rest)) :
      Value N ('[' :: text) (.array []) rest
  | array {text rest : List Char} {items : List Document} (h : Items N text items rest) :
      Value N ('[' :: text) (.array items) rest
  | noMembers {text rest : List Char} (h : Blanks text ('}' :: rest)) :
      Value N ('{' :: text) (.object []) rest
  | object {text rest : List Char} {members : List (String × Document)}
      (h : Members N text members rest) : Value N ('{' :: text) (.object members) rest

/-- The items of an array, at least one, and its closing bracket. -/
inductive Items (N : NumberFormat) : List Char → List Document → List Char → Prop where
  | last {text value behind rest : List Char} {x : Document} (hbefore : Blanks text value)
      (hvalue : Value N value x behind) (hbehind : Blanks behind (']' :: rest)) :
      Items N text [x] rest
  | more {text value behind next rest : List Char} {x : Document} {items : List Document}
      (hbefore : Blanks text value) (hvalue : Value N value x behind)
      (hbehind : Blanks behind (',' :: next)) (h : Items N next items rest) :
      Items N text (x :: items) rest

/-- A member of an object: its name, a colon and its value. -/
inductive Member (N : NumberFormat) : List Char → String × Document → List Char → Prop where
  | mk {text name cs colon before value rest : List Char} {x : Document}
      (hname : Blanks text ('"' :: name)) (hcharacters : Characters name cs colon)
      (hcolon : Blanks colon (':' :: before)) (hbefore : Blanks before value)
      (hvalue : Value N value x rest) : Member N text (String.ofList cs, x) rest

/-- The members of an object, at least one, and its closing brace. -/
inductive Members (N : NumberFormat) :
    List Char → List (String × Document) → List Char → Prop where
  | last {text behind rest : List Char} {m : String × Document} (hmember : Member N text m behind)
      (hbehind : Blanks behind ('}' :: rest)) : Members N text [m] rest
  | more {text behind next rest : List Char} {m : String × Document}
      {members : List (String × Document)} (hmember : Member N text m behind)
      (hbehind : Blanks behind (',' :: next)) (h : Members N next members rest) :
      Members N text (m :: members) rest

end

theorem Blanks.trans {a b c : List Char} (h : Blanks a b) (h' : Blanks b c) : Blanks a c := by
  induction h with
  | none => exact h'
  | more hc _ ih => exact .more hc (ih h')

theorem Blanks.length_le {text rest : List Char} (h : Blanks text rest) :
    rest.length ≤ text.length := by
  induction h with
  | none => exact Nat.le_refl _
  | more _ _ ih => exact Nat.le_succ_of_le ih

/-- Blanks in front of the first item belong to the items, and those in front of the
    first member to the members. -/
theorem Items.padded {N : NumberFormat} {before text rest : List Char} {items : List Document}
    (h : Items N text items rest) (hblanks : Blanks before text) : Items N before items rest := by
  cases h with
  | last hbefore hvalue hbehind => exact .last (hblanks.trans hbefore) hvalue hbehind
  | more hbefore hvalue hbehind h => exact .more (hblanks.trans hbefore) hvalue hbehind h

theorem Member.padded {N : NumberFormat} {before text rest : List Char} {m : String × Document}
    (h : Member N text m rest) (hblanks : Blanks before text) : Member N before m rest := by
  cases h with
  | mk hname hcharacters hcolon hbefore hvalue =>
      exact .mk (hblanks.trans hname) hcharacters hcolon hbefore hvalue

theorem Members.padded {N : NumberFormat} {before text rest : List Char}
    {members : List (String × Document)} (h : Members N text members rest)
    (hblanks : Blanks before text) : Members N before members rest := by
  cases h with
  | last hmember hbehind => exact .last (hmember.padded hblanks) hbehind
  | more hmember hbehind h => exact .more (hmember.padded hblanks) hbehind h

theorem Characters.length_lt {text cs rest : List Char} (h : Characters text cs rest) :
    rest.length < text.length := by
  induction h with
  | close rest => exact Nat.lt_succ_self _
  | plain _ _ _ _ ih | letter _ _ ih | unit _ _ _ ih | pair _ _ _ _ _ ih =>
      simp only [List.length_cons]
      omega

/-- A number without its sign starts with a digit. -/
theorem Unsigned.head {text : List Char} (h : Unsigned text) :
    ∃ c rest, c.isDigit = true ∧ text = c :: rest := by
  obtain ⟨whole, fraction, exponent, hwhole, -, -, rfl⟩ := h
  cases whole with
  | nil => exact absurd rfl hwhole.1.1
  | cons c rest => exact ⟨c, _, hwhole.1.2 c List.mem_cons_self, rfl⟩

variable {N : NumberFormat}

theorem Value.head_object {text rest : List Char} {members : List (String × Document)}
    (h : Value N text (.object members) rest) : ∃ inner, text = '{' :: inner := by
  cases h with
  | noMembers | object => exact ⟨_, rfl⟩

mutual

/-- A value is not empty. -/
theorem Value.length_lt {text rest : List Char} {d : Document} :
    Value N text d rest → rest.length < text.length
  | .null _ | .true _ | .false _ => by simp only [List.length_cons]; omega
  | .string h => Nat.lt_succ_of_lt h.length_lt
  | .positive _ hliteral _ => by
      obtain ⟨c, cs, -, rfl⟩ := hliteral.head
      simp only [List.length_append, List.length_cons]
      omega
  | .negative _ _ _ => by
      simp only [List.length_append, List.length_cons]
      omega
  | .noItems h | .noMembers h => Nat.lt_succ_of_lt (Nat.lt_of_succ_le h.length_le)
  | .array h => Nat.lt_succ_of_lt h.length_lt
  | .object h => Nat.lt_succ_of_lt h.length_lt

theorem Items.length_lt {text rest : List Char} {items : List Document} :
    Items N text items rest → rest.length < text.length
  | .last hbefore hvalue hbehind => by
      have hv := hvalue.length_lt
      have hb := hbefore.length_le
      have hr := hbehind.length_le
      rw [List.length_cons] at hr
      omega
  | .more hbefore hvalue hbehind h => by
      have hv := hvalue.length_lt
      have hb := hbefore.length_le
      have hr := hbehind.length_le
      have hi := h.length_lt
      rw [List.length_cons] at hr
      omega

theorem Member.length_lt {text rest : List Char} {m : String × Document} :
    Member N text m rest → rest.length < text.length
  | .mk hname hcharacters hcolon hbefore hvalue => by
      have hn := hname.length_le
      have hc := hcharacters.length_lt
      have hs := hcolon.length_le
      have hb := hbefore.length_le
      have hv := hvalue.length_lt
      rw [List.length_cons] at hn hs
      omega

theorem Members.length_lt {text rest : List Char} {members : List (String × Document)} :
    Members N text members rest → rest.length < text.length
  | .last hmember hbehind => by
      have hm := hmember.length_lt
      have hr := hbehind.length_le
      rw [List.length_cons] at hr
      omega
  | .more hmember hbehind h => by
      have hm := hmember.length_lt
      have hr := hbehind.length_le
      have hi := h.length_lt
      rw [List.length_cons] at hr
      omega

end

end Grammar

/-- A text spells a document, with nothing but blanks around it. -/
def Spells (N : NumberFormat) (s : String) (d : Document) : Prop :=
  ∃ value rest, Grammar.Blanks s.toList value ∧ Grammar.Value N value d rest ∧
    Grammar.Blanks rest []

end Json

end Criteria
