import Criteria.Proofs.NumberText

/-!
# Documents Written

The text of a document spells this document.

A library for JSON text writes without blanks and puts the parts of a document one
behind the other. Everything is put into text so that what follows it does not
matter: a string ends with its quote, an array and an object end with their bracket,
and where a number ends is settled by what the grammar puts behind it. So each part
is spelled in front of any rest, and the parts are joined as the grammar joins them.

What a library reads is laid down by the grammar alone. Of text that it has written
itself nothing is promised, and least of all that it is read back. That is a theorem:
what is written spells the document, and what spells data is read as this data. Only
of numbers a round trip is asked for, since their format is not the grammar's.

## Main definitions

* `Document.Definite`: Documents all of whose literals denote something.
* `Library.Lawful`: What is asked of a library for JSON text.

## Theorems

* `Grammar.characters_escape`: Every character of a string is spelled by its escape.
* `Grammar.value_write`: A document is spelled in front of any rest.
* `Library.spells_write`: The text of a document spells this document.
-/

namespace Criteria

namespace Json

namespace Document

/-- A document all of whose literals denote something. -/
inductive Definite : Document → Prop where
  | null : Definite .null
  | bool (b : Bool) : Definite (.bool b)
  | number (n : Number) : Definite (.number n)
  | string (s : String) : Definite (.string s)
  | array (items : List Document) (h : ∀ x ∈ items, Definite x) : Definite (.array items)
  | object (members : List (String × Document)) (h : ∀ m ∈ members, Definite m.2) :
      Definite (.object members)

end Document

/-- What is asked of a library for JSON text. -/
structure Library.Lawful (L : Library) : Prop where
  /-- Its format of numbers is one. -/
  numbers : L.numbers.Lawful
  write_null : (L.write .null).toList = "null".toList
  write_bool : ∀ b, (L.write (.bool b)).toList = (if b then "true" else "false").toList
  write_number : ∀ n, (L.write (.number n)).toList = L.numbers.chars n
  write_string : ∀ s, (L.write (.string s)).toList = Document.quoted s
  write_array : ∀ items, (L.write (.array items)).toList =
    '[' :: ([','].intercalate (items.map fun x => (L.write x).toList) ++ [']'])
  write_object : ∀ members, (L.write (.object members)).toList =
    '{' :: ([','].intercalate
      (members.map fun m => Document.quoted m.1 ++ ':' :: (L.write m.2).toList) ++ ['}'])
  /-- Text is read as the data it spells, however it spells it, in canonical form. It is
      not read if more brackets are open at once than the limit allows. -/
  read_spelled : ∀ (s : String) (j : Json), Spells L.numbers s j.toDocument →
    L.readData? s = if j.nesting ≤ nestingLimit then some j.canonical else none
  /-- Nothing is read of text that spells no data. -/
  spelled_of_read : ∀ (s : String) (j : Json), L.readData? s = some j →
    ∃ j' : Json, Spells L.numbers s j'.toDocument

namespace Grammar

theorem isHex_hexDigit (n : Nat) : IsHex (Document.hexDigit n) (n % 16) :=
  ⟨Nat.mod_lt n (by decide), Or.inl rfl⟩

/-- Every character is spelled by its escape. -/
theorem characters_escape (c : Char) {text cs rest : List Char} (h : Characters text cs rest) :
    Characters (Document.escape c ++ text) (c :: cs) rest := by
  unfold Document.escape
  split
  -- A control character without a letter is written by its number, all else as it is.
  case h_8 hquote hbackslash _ _ _ _ _ =>
    split
    · next hcontrol =>
        have hzero : IsHex '0' 0 := isHex_hexDigit 0
        have hunit : IsUnit '0' '0' (Document.hexDigit (c.toNat / 16)) (Document.hexDigit c.toNat)
            c.toNat :=
          ⟨0, 0, _, _, hzero, hzero, isHex_hexDigit _, isHex_hexDigit _, by omega⟩
        have hunit := Characters.unit hunit (Or.inl (by omega)) h
        rw [Char.ofNat_toNat] at hunit
        exact hunit
    · next hcontrol => exact .plain (Nat.not_lt.1 hcontrol) hquote hbackslash h
  -- All others are written by a letter.
  all_goals exact .letter (by decide) h

theorem characters_quoted (cs rest : List Char) :
    Characters (cs.flatMap Document.escape ++ '"' :: rest) cs rest := by
  induction cs with
  | nil => exact .close rest
  | cons c cs ih =>
      rw [List.flatMap_cons, List.append_assoc]
      exact characters_escape c ih

theorem value_chars {N : NumberFormat} (hN : N.Lawful) (n : Number) (rest : List Char) :
    Value N (N.chars n ++ rest) (.number n) rest := by
  have hread := NumberFormat.number?_unsigned hN n
  have hliteral := NumberFormat.unsigned_unsigned hN n
  rw [NumberFormat.chars]
  cases hsigned : n.isSigned with
  | true =>
      rw [hsigned] at hread
      exact .negative rest hliteral hread
  | false =>
      rw [hsigned] at hread
      exact .positive rest hliteral hread

variable {L : Library}

/-- Items are spelled one by one, with a comma or the closing bracket behind each. -/
theorem items_write {x : Document} {items : List Document}
    (h : ∀ y ∈ x :: items, ∀ rest, Value L.numbers ((L.write y).toList ++ rest) y rest)
    (rest : List Char) :
    Items L.numbers ([','].intercalate ((x :: items).map fun y => (L.write y).toList) ++
      ']' :: rest) (x :: items) rest := by
  induction items generalizing x with
  | nil =>
      rw [List.map_singleton, List.intercalate_singleton]
      exact .last (.none _) (h x List.mem_cons_self _) (.none _)
  | cons y items ih =>
      rw [List.map_cons, List.map_cons, List.intercalate_cons_cons, List.append_assoc,
        List.append_assoc]
      exact .more (.none _) (h x List.mem_cons_self _) (.none _)
        (ih fun z hz => h z (List.mem_cons_of_mem x hz))

theorem member_write {m : String × Document}
    (h : ∀ rest, Value L.numbers ((L.write m.2).toList ++ rest) m.2 rest) (rest : List Char) :
    Member L.numbers (Document.quoted m.1 ++ ':' :: (L.write m.2).toList ++ rest) m rest := by
  obtain ⟨name, x⟩ := m
  have hname := characters_quoted name.toList (':' :: (L.write x).toList ++ rest)
  have hmember := Member.mk (.none _) hname (.none _) (.none _) (h rest)
  rw [String.ofList_toList] at hmember
  rw [Document.quoted, List.append_assoc, List.cons_append, List.append_assoc]
  exact hmember

/-- Members are spelled one by one, as items are. -/
theorem members_write {m : String × Document} {members : List (String × Document)}
    (h : ∀ m' ∈ m :: members, ∀ rest,
      Value L.numbers ((L.write m'.2).toList ++ rest) m'.2 rest) (rest : List Char) :
    Members L.numbers ([','].intercalate ((m :: members).map fun m' =>
      Document.quoted m'.1 ++ ':' :: (L.write m'.2).toList) ++ '}' :: rest) (m :: members) rest := by
  induction members generalizing m with
  | nil =>
      rw [List.map_singleton, List.intercalate_singleton]
      exact .last (member_write (h m List.mem_cons_self) _) (.none _)
  | cons m' members ih =>
      rw [List.map_cons, List.map_cons, List.intercalate_cons_cons, List.append_assoc,
        List.append_assoc]
      exact .more (member_write (h m List.mem_cons_self) _) (.none _)
        (ih fun z hz => h z (List.mem_cons_of_mem m hz))

/-- What can be put into text is spelled in front of any rest. -/
theorem value_write (hL : L.Lawful) {d : Document} (h : d.Definite) (rest : List Char) :
    Value L.numbers ((L.write d).toList ++ rest) d rest := by
  induction h generalizing rest with
  | null =>
      rw [hL.write_null]
      exact .null rest
  | bool b =>
      rw [hL.write_bool]
      cases b with
      | true => exact .true rest
      | false => exact .false rest
  | number n =>
      rw [hL.write_number]
      exact value_chars hL.numbers n rest
  | string s =>
      have hcharacters := characters_quoted s.toList rest
      have hvalue := Value.string (N := L.numbers) hcharacters
      rw [String.ofList_toList] at hvalue
      rw [hL.write_string, Document.quoted, List.cons_append, List.append_assoc]
      exact hvalue
  | array items h ih =>
      rw [hL.write_array, List.cons_append, List.append_assoc]
      cases items with
      | nil => exact .noItems (.none _)
      | cons x items => exact .array (items_write ih rest)
  | object members h ih =>
      rw [hL.write_object, List.cons_append, List.append_assoc]
      cases members with
      | nil => exact .noMembers (.none _)
      | cons m members => exact .object (members_write ih rest)

end Grammar

namespace Library

variable {L : Library} (hL : L.Lawful)

include hL

/-- The text of a document spells this document. -/
theorem spells_write {d : Document} (h : d.Definite) : Spells L.numbers (L.write d) d := by
  have hvalue := Grammar.value_write hL h []
  rw [List.append_nil] at hvalue
  exact ⟨_, [], .none _, hvalue, .none _⟩

/-- What is read of the text of data is its canonical form, if its brackets are not
    nested too deep, and otherwise nothing. -/
theorem readData?_write {j : Json} (h : j.toDocument.Definite) :
    L.readData? (L.write j.toDocument) =
      if j.nesting ≤ nestingLimit then some j.canonical else none :=
  hL.read_spelled _ j (spells_write hL h)

end Library

end Json

end Criteria
