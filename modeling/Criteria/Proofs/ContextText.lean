import Criteria.Proofs.Reading
import Criteria.Rule

/-!
# Contexts Read Back

Rules against the text of a context.

A context is written as an object with the variables as members, in no particular
order. Evaluating a rule against this text is evaluating it in the context: whatever
a rule looks at is read back as it was, down to the difference between `1` and `1.0`
and to the sign of a zero. An error of the rule stays an error of the rule. The text
is read before anything is evaluated, so what cannot be read is an error of the
context, no matter what the rule is. That is the case where brackets are nested too
deep, and for every text that is not an object.

The library that writes and reads the text is any lawful one. It promises nothing of
contexts or of text that it has written itself. What comes back is found by way of
the grammar: the text of a context spells the object, and what spells an object is
read as this object.

## Theorems

* `Context.ofText?_write`: What is read of the text of a context.
* `Context.ofText?_eq_none`: Nothing is read of text that is not an object.
* `evaluateJson_text_iff`: Evaluation against text is evaluation in the context.
-/

namespace Criteria

namespace Context

theorem ext {c c' : Context} (h : c.bindings = c'.bindings) : c = c' := by
  cases c
  cases c'
  cases h
  rfl

/-- A context made of a list binds the canonical forms in the list. -/
theorem bindings_ofList (l : List (String × Json)) :
    (ofList l).bindings = Bindings.ofList (Json.canonicalMembers l) := by
  -- For the induction the bindings start from any context.
  have hfold : ∀ c : Context, (l.foldl (fun c e => c.set e.1 e.2) c).bindings =
      (Json.canonicalMembers l).foldl (fun m e => m.insert e.1 e.2) c.bindings := by
    induction l with
    | nil => exact fun c => rfl
    | cons e rest ih => exact fun c => ih (c.set e.1 e.2)
  exact hfold empty

/-- The bindings of a context are in canonical form. -/
theorem canonicalMembers_perm {c : Context} {members : List (String × Json)}
    (h : members.Perm c.bindings.entries) : Json.canonicalMembers members = members :=
  Json.canonicalMembers_of_canonical fun m hm =>
    Json.canonical_of_canonical (c.canonical m (h.mem_iff.1 hm))

section Reading

variable {L : Json.Library} (hL : L.Lawful)

include hL

/-- The text of a context, its members in any order, is read as this context, if the
    brackets are not nested too deep, and otherwise as nothing. -/
theorem ofText?_write {c : Context} {members : List (String × Json)}
    (h : members.Perm c.bindings.entries) :
    ofText? L (L.write (Json.object members).toDocument) =
      if c.toJson.nesting ≤ Json.nestingLimit then some c else none := by
  have hfits : (Json.object members).nesting ≤ Json.nestingLimit ↔
      c.toJson.nesting ≤ Json.nestingLimit := by
    rw [toJson, Json.nestingLimit, Json.nesting_object_le_iff, Json.nesting_object_le_iff]
    simp only [h.mem_iff]
  have hcanonical : (Json.object members).canonical = .object c.bindings.entries := by
    rw [Json.canonical, canonicalMembers_perm h, Bindings.ofList_perm h]
  -- What is read is bound name by name, and that makes the same context again.
  have hsame : ofList c.bindings.entries = c := by
    refine ext ?_
    rw [bindings_ofList, canonicalMembers_perm (List.Perm.refl _),
      Bindings.ofList_perm (List.Perm.refl _)]
  have hread := Json.Library.readData?_write hL (Json.object members).toDocument_definite
  rw [ofText?, hread, hcanonical]
  by_cases hnesting : c.toJson.nesting ≤ Json.nestingLimit
  · rw [if_pos (hfits.2 hnesting), if_pos hnesting, Option.bind_some, ofData?, hsame]
  · rw [if_neg (mt hfits.1 hnesting), if_neg hnesting, Option.bind_none]

/-- A text that is not an object spells no context. -/
theorem ofText?_eq_none {t : String} (h : ¬∃ members, Json.Spells L.numbers t (.object members)) :
    ofText? L t = none := by
  rw [ofText?]
  cases hread : L.readData? t with
  | none => rfl
  | some j =>
      obtain ⟨j', hspelled⟩ := hL.spelled_of_read t j hread
      have hj := hL.read_spelled t j' hspelled
      rw [hread] at hj
      split at hj
      · -- The canonical form of data has the same kind as the data.
        rw [Option.some.inj hj]
        cases j' with
        | object members => exact absurd ⟨_, hspelled⟩ h
        | null | bool b | number n | string s | array items => rfl
      · cases hj

end Reading

end Context

variable {L : Json.Library}

theorem evaluateJson_of_none {e : Expr} {t : String} (h : Context.ofText? L t = none) :
    evaluateJson L e t = .error .context := by
  rw [evaluateJson, h]

/-- Errors of a rule are told from others, and values are not touched. -/
theorem mapError_eval_eq_ok_iff {r : Except EvalError Value} {v : Value} :
    r.mapError Failure.eval = .ok v ↔ r = .ok v := by
  cases r with
  | ok w => exact ⟨fun h => congrArg _ (Except.ok.inj h), fun h => congrArg _ (Except.ok.inj h)⟩
  | error err => exact iff_of_false nofun nofun

theorem mapError_eval_eq_error_iff {r : Except EvalError Value} {cause : EvalError} :
    r.mapError Failure.eval = .error (.eval cause) ↔ r = .error cause := by
  cases r with
  | ok w => exact iff_of_false nofun nofun
  | error err =>
      refine ⟨fun h => congrArg _ (Failure.eval.inj (Except.error.inj h)), fun h => ?_⟩
      rw [Except.error.inj h]
      rfl

/-- Evaluating a rule against the text of a context gives what evaluating it in the
    context gives, value or error, as long as at most 127 brackets are open at once in
    the text. Against any other text of a context, and against a text that is not an
    object, every rule fails with an error of the context. -/
theorem evaluateJson_text_iff (L : Json.Library) (hL : L.Lawful) (e : Expr) :
    (∀ (c : Context) (members : List (String × Json)), members.Perm c.bindings.entries →
      let t := L.write (Json.object members).toDocument
      (c.toJson.nesting ≤ 127 →
        (∀ v, evaluateJson L e t = .ok v ↔ evaluate e c = .ok v) ∧
        ∀ cause, evaluateJson L e t = .error (.eval cause) ↔ evaluate e c = .error cause) ∧
      (127 < c.toJson.nesting → evaluateJson L e t = .error .context)) ∧
    ∀ t, (¬∃ members, Json.Spells L.numbers t (.object members)) →
      evaluateJson L e t = .error .context := by
  refine ⟨fun c members hmembers => ⟨fun hfits => ?_, fun hdeep => ?_⟩, fun t ht => ?_⟩
  · have hread : Context.ofText? L (L.write (Json.object members).toDocument) = some c := by
      rw [Context.ofText?_write hL hmembers]
      exact if_pos hfits
    have hevaluate : evaluateJson L e (L.write (Json.object members).toDocument) =
        (evaluate e c).mapError .eval := by
      rw [evaluateJson, hread]
    rw [hevaluate]
    exact ⟨fun v => mapError_eval_eq_ok_iff, fun cause => mapError_eval_eq_error_iff⟩
  · refine evaluateJson_of_none ?_
    rw [Context.ofText?_write hL hmembers]
    exact if_neg (Nat.not_le.2 hdeep)
  · exact evaluateJson_of_none (Context.ofText?_eq_none hL ht)

/-- A context with two variables, written in descending order of their names; one that
    is nested too deep; and an array in place of a context. -/
theorem evaluateJson_text_iff_sum :
    let L := Json.Library.standard
    let sum : Expr := .binary .add (.variable "a") (.variable "b")
    let c := (Context.empty.set "a" (.number (.ofInt64 1))).set "b" (.number (.ofInt64 2))
    let members := [("b", Json.number (.ofInt64 2)), ("a", .number (.ofInt64 1))]
    let deep := Context.empty.set "a" (Nat.repeat (fun j => Json.array [j]) 127 .null)
    L.Lawful ∧ members.Perm c.bindings.entries ∧ c.toJson.nesting ≤ 127 ∧
      (evaluateJson L sum (L.write (Json.object members).toDocument) = .ok (.int 3) ↔
        evaluate sum c = .ok (.int 3)) ∧
      127 < deep.toJson.nesting ∧
      evaluateJson L sum (L.write deep.toJson.toDocument) = .error .context ∧
      (¬∃ members, Json.Spells L.numbers "[]" (.object members)) ∧
      evaluateJson L sum "[]" = .error .context := by
  intro L sum c members deep
  have hL : L.Lawful := Json.Library.standard_lawful
  have hmembers : members.Perm c.bindings.entries := List.Perm.swap _ _ []
  have hfits : c.toJson.nesting ≤ 127 := by decide
  have hdeep : 127 < deep.toJson.nesting := by decide +kernel
  have harray : ¬∃ members, Json.Spells L.numbers "[]" (.object members) := by
    rintro ⟨members, value, rest, hblanks, hobject, -⟩
    have hchars : "[]".toList = ['[', ']'] := rfl
    rw [hchars] at hblanks
    obtain ⟨text, rfl⟩ := Json.Grammar.Value.head_object hobject
    cases hblanks with
    | more hc _ => exact absurd hc (by decide)
  obtain ⟨htext, hother⟩ := evaluateJson_text_iff L hL sum
  exact ⟨hL, hmembers, hfits, ((htext c members hmembers).1 hfits).1 _, hdeep,
    (htext deep _ (List.Perm.refl _)).2 hdeep, harray, hother _ harray⟩

end Criteria
