import Criteria.Bindings
import Criteria.Json.Number

/-!
# JSON Data

The dynamic data that rules are evaluated against.

An object is given by its members. Written text may name a member twice or in
any order; data has one form, with every name once and the names ascending.
`canonical` brings data into that form and `Canonical` describes it.

## Main definitions

* `Json`: Null, truth values, numbers, text, arrays and objects.
* `Canonical`: Every object lists its members once each and in order.
* `canonical`: The canonical form; of two members of one name the last counts.
* `equals`: Equality of data.

## Theorems

* `canonical_isCanonical`: The canonical form is canonical.
-/

namespace Criteria

/-- JSON data. -/
inductive Json where
  | null
  | bool (b : Bool)
  | number (n : Json.Number)
  | string (s : String)
  | array (items : List Json)
  | object (members : List (String × Json))

namespace Json

instance : Inhabited Json := ⟨.null⟩

/-- Every object within the data lists its members once each and in
    ascending order of names. -/
inductive Canonical : Json → Prop where
  | null : Canonical .null
  | bool (b : Bool) : Canonical (.bool b)
  | number (n : Number) : Canonical (.number n)
  | string (s : String) : Canonical (.string s)
  | array (items : List Json) (h : ∀ x ∈ items, Canonical x) : Canonical (.array items)
  | object (members : List (String × Json)) (ascending : members.Pairwise fun a b => a.1 < b.1)
      (h : ∀ m ∈ members, Canonical m.2) : Canonical (.object members)

mutual

/-- The canonical form of data. -/
def canonical : Json → Json
  | .array items => .array (canonicalItems items)
  | .object members => .object (Bindings.ofList (canonicalMembers members)).entries
  | .null => .null
  | .bool b => .bool b
  | .number n => .number n
  | .string s => .string s

/-- The canonical forms of the items of an array. -/
def canonicalItems : List Json → List Json
  | [] => []
  | x :: rest => x.canonical :: canonicalItems rest

/-- The members of an object with their values in canonical form. -/
def canonicalMembers : List (String × Json) → List (String × Json)
  | [] => []
  | (name, x) :: rest => (name, x.canonical) :: canonicalMembers rest

end

mutual

theorem canonical_isCanonical : ∀ j : Json, j.canonical.Canonical
  | .null => by rw [canonical]; exact .null
  | .bool b => by rw [canonical]; exact .bool b
  | .number n => by rw [canonical]; exact .number n
  | .string s => by rw [canonical]; exact .string s
  | .array items => by rw [canonical]; exact .array _ (canonicalItems_isCanonical items)
  | .object members => by
      rw [canonical]
      exact .object _ (Bindings.ascending _) fun m hm =>
        canonicalMembers_isCanonical members m (Bindings.mem_ofList hm)

theorem canonicalItems_isCanonical : ∀ (items : List Json), ∀ x ∈ canonicalItems items, x.Canonical
  | [] => by rw [canonicalItems]; exact fun x hx => absurd hx List.not_mem_nil
  | y :: rest => by
      rw [canonicalItems]
      intro x hx
      rcases List.mem_cons.1 hx with rfl | hx
      · exact canonical_isCanonical y
      · exact canonicalItems_isCanonical rest x hx

theorem canonicalMembers_isCanonical : ∀ (members : List (String × Json)),
    ∀ m ∈ canonicalMembers members, m.2.Canonical
  | [] => by rw [canonicalMembers]; exact fun m hm => absurd hm List.not_mem_nil
  | (name, y) :: rest => by
      rw [canonicalMembers]
      intro m hm
      rcases List.mem_cons.1 hm with rfl | hm
      · exact canonical_isCanonical y
      · exact canonicalMembers_isCanonical rest m hm

end

mutual

/-- Equality of data. Numbers are compared by `Number.equals`, so this is not
    identity. -/
def equals : Json → Json → Bool
  | .null, .null => true
  | .bool a, .bool b => a == b
  | .number a, .number b => a.equals b
  | .string a, .string b => a == b
  | .array a, .array b => equalItems a b
  | .object a, .object b => equalMembers a b
  | _, _ => false

/-- Equality of arrays, item by item. -/
def equalItems : List Json → List Json → Bool
  | [], [] => true
  | x :: xs, y :: ys => x.equals y && equalItems xs ys
  | _, _ => false

/-- Equality of objects in canonical form, member by member. -/
def equalMembers : List (String × Json) → List (String × Json) → Bool
  | [], [] => true
  | (name, x) :: xs, (other, y) :: ys => name == other && x.equals y && equalMembers xs ys
  | _, _ => false

end

end Json

end Criteria
