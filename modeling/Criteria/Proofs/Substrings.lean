import Criteria.Proofs.Connectives
import Criteria.Proofs.TextCasts

/-!
# Texts within Texts

What `contains` and `len` say of the texts of their arguments.

Both functions take their arguments as text, and with the caster for JSON data every value
has a text: a number or a truth value as it is written, an infinity its word. So the two
never fail on arguments that have values, and all that can be said of them is said of
texts. A text is within another if the other is made of something before it, the text, and
something after it. `contains` decides that by trying every position, so it finds a text
that begins in the middle of a failed attempt, and a character is a character, however many
bytes it takes.

The laws that a maintainer of rules counts on are then those of parts and wholes: a part is
not longer than the whole, it is the whole if it is as long, a part of a part is a part. The
number that `len` gives is an integer of 64 bits, and it is the number of characters as long
as there are less than `2 ^ 63` of them. This is only a matter of how `len` gives it. What
`contains` says does not depend on it.

## Main definitions

* `Text.Within`: A text is a part of another.

## Theorems

* `Text.occursIn_iff_within`: The search decides whether a text is within another.
* `Text.Within.trans`, `Text.Within.length_le`, `Text.Within.eq_of_length`: Parts and wholes.
* `Evaluator.evalString_written`: What has a value has a text.
* `Evaluator.eval_contains`, `Evaluator.eval_length`: The two functions on texts.
* `Evaluator.contains_and_length`: The laws, of the functions.
-/

namespace Criteria

namespace Text

/-- Whether a text is a part of another, which may have something before it and something
    after it. -/
def Within (part whole : String) : Prop :=
  ∃ before after, whole = before ++ part ++ after

/-- Texts are parts of each other as their characters are. -/
theorem within_iff_toList {part whole : String} :
    Within part whole ↔ part.toList <:+: whole.toList := by
  constructor
  · rintro ⟨before, after, rfl⟩
    exact ⟨before.toList, after.toList, by rw [String.toList_append, String.toList_append]⟩
  · rintro ⟨before, after, h⟩
    refine ⟨String.ofList before, String.ofList after, String.toList_inj.1 ?_⟩
    rw [String.toList_append, String.toList_append, String.toList_ofList, String.toList_ofList, h]

/-- The search finds a text in another if and only if it is there. -/
theorem occursIn_iff_within {part whole : String} :
    occursIn part.toList whole.toList = true ↔ Within part whole := by
  rw [occursIn_iff, within_iff_toList]
  exact exists_congr fun before => exists_congr fun after => eq_comm

namespace Within

variable {part whole : String}

theorem refl (t : String) : Within t t :=
  within_iff_toList.2 (List.infix_refl _)

theorem empty (t : String) : Within "" t :=
  within_iff_toList.2 List.nil_infix

theorem trans {outer : String} (h : Within part whole) (h' : Within whole outer) :
    Within part outer :=
  within_iff_toList.2 ((within_iff_toList.1 h).trans (within_iff_toList.1 h'))

theorem length_le (h : Within part whole) : part.length ≤ whole.length := by
  have hle := (within_iff_toList.1 h).length_le
  rwa [String.length_toList, String.length_toList] at hle

theorem eq_of_length (h : Within part whole) (hlength : part.length = whole.length) :
    part = whole := by
  refine String.toList_inj.1 ((within_iff_toList.1 h).eq_of_length ?_)
  rwa [String.length_toList, String.length_toList]

end Within

end Text

namespace Evaluator

section Texts

variable {m : Type → Type} [Monad m] [LawfulMonad m] (s : Semantics m) {c : Context}
  {a b : Expr} {t u : String}

/-- `len` gives the number of characters of the text of its argument. -/
theorem eval_length (ha : (withBuiltins s).evalString a c = pure t) :
    (withBuiltins s).eval (.call "len" [a]) c = pure (.int (Int64.ofNat t.length)) := by
  have hcall := eval_builtin s (by simp [Builtin.all] : ("len", Builtin.length) ∈ Builtin.all) [a] c
  have htext : ((withBuiltins s).argument a).evalString s c = pure t := ha
  rw [hcall, List.map_singleton, Builtin.length, htext, pure_bind]

/-- `contains` searches the text of its first argument for that of the second. -/
theorem eval_contains (ha : (withBuiltins s).evalString a c = pure t)
    (hb : (withBuiltins s).evalString b c = pure u) :
    (withBuiltins s).eval (.call "contains" [a, b]) c =
      pure (.bool (Text.occursIn u.toList t.toList)) := by
  have hcall := eval_builtin s
    (by simp [Builtin.all] : ("contains", Builtin.contains) ∈ Builtin.all) [a, b] c
  have hwhole : ((withBuiltins s).argument a).evalString s c = pure t := ha
  have hpart : ((withBuiltins s).argument b).evalString s c = pure u := hb
  rw [hcall, List.map_cons, List.map_singleton, Builtin.contains, hwhole, pure_bind, hpart,
    pure_bind]

end Texts

variable (division : DivisionPolicy) {c : Context}

/-- With the caster for JSON data an expression that has a value has a text, which is that of
    the value. -/
theorem evalString_written {e : Expr} {v : Value}
    (h : ((withBuiltins ⟨Caster.json, division⟩).eval e c : Outcome Id Value) = pure v) :
    ((withBuiltins ⟨Caster.json, division⟩).evalString e c : Outcome Id String) =
      pure v.written := by
  have hcoerce : (⟨Caster.json, division⟩ : Semantics Id).coerce v .string =
      pure (.string v.written) :=
    Semantics.coerce_of_castValue _ (Caster.castValue_written v) rfl
  have hvalue : ((withBuiltins ⟨Caster.json, division⟩).argument e).eval c =
      (pure v : Outcome Id Value) := h
  rw [evalString, Argument.evalString, Argument.evalAs, hvalue, pure_bind,
    toSemantics_withBuiltins, hcoerce, pure_bind]

/-- On texts `contains` is true if one is within the other, and false otherwise. -/
theorem eval_contains_iff {s : Semantics Id} {a b : Expr} {t u : String}
    (ha : (withBuiltins s).evalString a c = pure t)
    (hb : (withBuiltins s).evalString b c = pure u) (found : Bool) :
    (withBuiltins s).eval (.call "contains" [a, b]) c = pure (.bool found) ↔
      (found = true ↔ Text.Within u t) := by
  rw [eval_contains s ha hb, ← Text.occursIn_iff_within]
  constructor
  · intro h
    cases h
    exact Iff.rfl
  · intro h
    rw [Bool.eq_iff_iff.2 h]

/-- The laws of `contains` and `len`, with the caster for JSON data. Expressions that have
    values have texts. Of two of them `contains` is true if the text of the second is within
    that of the first, and false otherwise; `len` gives the number of characters, wrapped
    around to 64 bits, so the number itself of every text that has less than `2 ^ 63` of
    them. If `contains` is true then the second text is not longer than the first, and it is
    the same if it is as long. What is contained in something contained is contained, and
    every text contains itself and the empty text. -/
theorem contains_and_length {a b d : Expr} {u v w : Value}
    (ha : ((withBuiltins ⟨Caster.json, division⟩).eval a c : Outcome Id Value) = pure u)
    (hb : ((withBuiltins ⟨Caster.json, division⟩).eval b c : Outcome Id Value) = pure v)
    (hd : ((withBuiltins ⟨Caster.json, division⟩).eval d c : Outcome Id Value) = pure w) :
    let ev : Evaluator Id := withBuiltins ⟨Caster.json, division⟩
    let contains (x y : Expr) : Outcome Id Value := ev.eval (.call "contains" [x, y]) c
    let len (x : Expr) : Outcome Id Value := ev.eval (.call "len" [x]) c
    ∃ s t r : String,
      (ev.evalString a c = pure s ∧ ev.evalString b c = pure t ∧ ev.evalString d c = pure r) ∧
      (contains a b = pure (.bool true) ↔ ∃ before after, s = before ++ t ++ after) ∧
      (contains a b = pure (.bool false) ↔ ¬∃ before after, s = before ++ t ++ after) ∧
      (∃ k : Int64, len a = pure (.int k) ∧ k = Int64.ofNat s.length ∧
        (s.length < 2 ^ 63 → k.toInt = s.length)) ∧
      (contains a b = pure (.bool true) →
        t.length ≤ s.length ∧ (t.length = s.length → s = t) ∧
        (s.length < 2 ^ 63 → ∃ k l : Int64, len a = pure (.int k) ∧ len b = pure (.int l) ∧
          l ≤ k ∧ (l = k → s = t))) ∧
      (contains a b = pure (.bool true) → contains b d = pure (.bool true) →
        contains a d = pure (.bool true)) ∧
      contains a a = pure (.bool true) ∧
      contains a (.literal (.string "")) = pure (.bool true) := by
  intro ev contains len
  have hs := evalString_written division ha
  have ht := evalString_written division hb
  have hr := evalString_written division hd
  have hempty : ev.evalString (.literal (.string "")) c = pure "" := rfl
  generalize u.written = s at *
  generalize v.written = t at *
  generalize w.written = r at *
  -- From here on the laws of `contains` are those of parts and wholes.
  have htrue : ∀ {x y : Expr} {whole part : String}, ev.evalString x c = pure whole →
      ev.evalString y c = pure part →
      (contains x y = pure (.bool true) ↔ Text.Within part whole) :=
    fun hwhole hpart => (eval_contains_iff hwhole hpart true).trans (iff_true_left rfl)
  refine ⟨s, t, r, ⟨hs, ht, hr⟩, htrue hs ht, ?_,
    ⟨_, eval_length _ hs, rfl, Int64.toInt_ofNat_of_lt⟩, fun h => ?_, fun h h' => ?_,
    (htrue hs hs).2 (.refl s), (htrue hs hempty).2 (.empty s)⟩
  · exact (eval_contains_iff hs ht false).trans (iff_false_left Bool.false_ne_true)
  · have hwithin := (htrue hs ht).1 h
    refine ⟨hwithin.length_le, fun hlength => (hwithin.eq_of_length hlength).symm, fun hs' =>
      ⟨_, _, eval_length _ hs, eval_length _ ht, ?_⟩⟩
    -- A part of a text with few enough characters has few enough characters.
    have hle := hwithin.length_le
    have hk : (Int64.ofNat s.length).toInt = s.length := Int64.toInt_ofNat_of_lt hs'
    have hl : (Int64.ofNat t.length).toInt = t.length := Int64.toInt_ofNat_of_lt (by omega)
    refine ⟨Int64.le_iff_toInt_le.2 (by omega), fun heq => (hwithin.eq_of_length ?_).symm⟩
    rw [heq] at hl
    omega
  · exact (htrue hs hr).2 (((htrue ht hr).1 h').trans ((htrue hs ht).1 h))

/-- Minus infinity is taken by its word, in which `"inf"` begins at the second of the four
    characters. -/
theorem contains_and_length_infinity :
    let ev : Evaluator Id := withBuiltins ⟨Caster.json, .error⟩
    let a : Expr := .literal (.float (Binary64.ofMagnitude true Binary64.infinityBits))
    let b : Expr := .literal (.string "inf")
    let d : Expr := .literal (.string "n")
    ev.eval a .empty = pure (.float (Binary64.ofMagnitude true Binary64.infinityBits)) ∧
      ev.eval b .empty = pure (.string "inf") ∧ ev.eval d .empty = pure (.string "n") ∧
      ev.evalString a .empty = pure "-inf" ∧
      ev.eval (.call "contains" [a, d]) .empty = pure (.bool true) ∧
      ∃ k : Int64, ev.eval (.call "len" [a]) .empty = pure (.int k) ∧ k.toInt = 4 := by
  intro ev a b d
  have ha : ev.eval a .empty = pure (.float (Binary64.ofMagnitude true Binary64.infinityBits)) :=
    rfl
  have hb : ev.eval b .empty = pure (.string "inf") := rfl
  have hd : ev.eval d .empty = pure (.string "n") := rfl
  have htext : ev.evalString a .empty = pure "-inf" := rfl
  rcases contains_and_length .error ha hb hd with
    ⟨s, t, r, ⟨hs, ht, hr⟩, hab, _, ⟨k, hk, _, hlength⟩, _, htrans, _⟩
  cases hs.symm.trans htext
  refine ⟨ha, hb, hd, htext, ?_, k, hk, hlength (by decide)⟩
  cases ht.symm.trans (rfl : ev.evalString b .empty = pure "inf")
  exact htrans (hab.2 ⟨"-", "", rfl⟩) rfl

end Evaluator

end Criteria
