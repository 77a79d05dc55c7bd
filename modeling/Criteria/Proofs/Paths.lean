import Criteria.Proofs.DataText

/-!
# Paths into Data

What a variable with dots in its name stands for.

A name is split at its dots, and there is one way to do so: its segments are the texts
without dots that give the name when they are joined again. A segment can be read as
the name of a member and, if it is written in digits, as the position of an item. Which
reading counts is decided by the data, an object or an array, so a name leads to at most
one place there, and may lead to none.

In the other direction every place can be named. A position in data is a list of keys,
and if the member names among them have no dots, then the keys written one after the
other are the segments of a name, and this name leads to the position. Only a binding
of the whole name may stand in its way, since that goes before all paths.

## Main definitions

* `Path.Plain`, `Path.join`: Segments, and the name that is made of them.
* `Path.Splits`: A name has certain segments.
* `Json.Key`: The name of a member or the position of an item.
* `Json.Key.Spells`: A segment can be read as a key.
* `Json.Child`, `Json.At`: What data has under a key, and under several in turn.

## Theorems

* `Path.splits_iff`: A name has the segments that it is split into, and no others.
* `Text.readIndex?_eq_some_iff`: Which segments are positions.
* `Json.child?_of_limit`: An upper limit on positions makes no difference.
* `Json.descend?_eq_some_iff`: What is found along segments.
* `Context.get?_resolves`: What a name leads to, and a name for every position.
-/

namespace Criteria

namespace Path

/-- Whether a text has no dots, so that it can be one segment of a name. -/
def Plain (segment : String) : Prop := '.' ∉ segment.toList

instance (segment : String) : Decidable (Plain segment) :=
  inferInstanceAs (Decidable ('.' ∉ segment.toList))

/-- The name that is made of segments. -/
def join (segments : List String) : String := ".".intercalate segments

/-- Whether these are the segments of a name. -/
structure Splits (name : String) (segments : List String) : Prop where
  ne_nil : segments ≠ []
  plain : ∀ s ∈ segments, Plain s
  join_eq : join segments = name

theorem split_eq_splitOn (cs : List Char) : split cs = cs.splitOn '.' := by
  induction cs using split.induct with
  | case1 => rfl
  | case2 cs ih =>
      rw [split, List.splitOn_cons_eq_if_modifyHead, if_pos (beq_self_eq_true _), ih]
  | case3 c cs _ hnil ih => exact absurd (ih.symm.trans hnil) (List.splitOn_ne_nil _ _)
  | case4 c cs hne segment rest heq ih =>
      have hdot : ¬(c == '.') = true := fun h => hne (eq_of_beq h)
      rw [List.splitOn_cons_eq_if_modifyHead, if_neg hdot, ← ih, split.eq_3 c cs hne, heq,
        List.modifyHead_cons]

theorem not_mem_of_mem_split {cs segment : List Char} (h : segment ∈ split cs) :
    '.' ∉ segment := by
  induction cs using split.induct generalizing segment with
  | case1 =>
      rw [List.mem_singleton.1 h]
      exact List.not_mem_nil
  | case2 cs ih =>
      rw [split] at h
      rcases List.mem_cons.1 h with rfl | h
      · exact List.not_mem_nil
      · exact ih h
  | case3 c cs _ hnil _ =>
      rw [split_eq_splitOn] at hnil
      exact absurd hnil (List.splitOn_ne_nil _ _)
  | case4 c cs hne first rest heq ih =>
      rw [split.eq_3 c cs hne, heq] at h
      rcases List.mem_cons.1 h with rfl | h
      · rw [List.mem_cons, not_or]
        exact ⟨fun h => hne h.symm, ih (heq ▸ List.mem_cons_self)⟩
      · exact ih (heq ▸ List.mem_cons_of_mem first h)

theorem segments_ne_nil (name : String) : segments name ≠ [] := by
  rw [segments, split_eq_splitOn]
  exact fun h => List.splitOn_ne_nil _ _ (List.map_eq_nil_iff.1 h)

theorem toList_join (segments : List String) :
    (join segments).toList = ['.'].intercalate (segments.map String.toList) := by
  rw [join, String.toList_intercalate]
  rfl

/-- A name has the segments that it is split into, and no others. -/
theorem splits_iff {name : String} {l : List String} : Splits name l ↔ l = segments name := by
  constructor
  · rintro ⟨hne, hplain, rfl⟩
    have hmap : ∀ s ∈ l.map String.toList, '.' ∉ s := List.forall_mem_map.2 hplain
    have hne' : l.map String.toList ≠ [] := fun h => hne (List.map_eq_nil_iff.1 h)
    have hofList : String.ofList ∘ String.toList = id := funext fun _ => String.ofList_toList
    rw [segments, split_eq_splitOn, toList_join, List.splitOn_intercalate _ hmap hne', List.map_map,
      hofList, List.map_id]
  · rintro rfl
    refine ⟨segments_ne_nil name, fun s hs => ?_, ?_⟩
    · rcases List.mem_map.1 hs with ⟨cs, hcs, rfl⟩
      rw [Plain, String.toList_ofList]
      exact not_mem_of_mem_split hcs
    · have htoList : String.toList ∘ String.ofList = id := funext fun _ => String.toList_ofList
      rw [← String.toList_inj, toList_join, segments, List.map_map, htoList, List.map_id,
        split_eq_splitOn, List.intercalate_splitOn]

end Path

namespace Json

/-- The name of a member or the position of an item. -/
inductive Key where
  | member (name : String)
  | item (index : Nat)

/-- A key as a segment of a name, positions in decimal digits. -/
def Key.text : Key → String
  | .member name => name
  | .item index => index.repr

/-- Whether a segment can be read as a key. For positions that takes decimal digits,
    with zeros and a plus sign in front of them if need be. -/
inductive Key.Spells : String → Key → Prop
  | member (name : String) : Spells name (.member name)
  | item {segment : String} {digits : List Char} (hne : digits ≠ [])
      (hdigits : ∀ d ∈ digits, d.isDigit = true)
      (hsegment : segment.toList = digits ∨ segment.toList = '+' :: digits) :
      Spells segment (.item (Nat.ofDigitChars 10 digits 0))

/-- What an object has as a member of some name, or an array as an item at some
    position. -/
inductive Child : Key → Json → Json → Prop
  | member {name : String} {members : List (String × Json)} {v : Json}
      (h : (name, v) ∈ members) : Child (.member name) (.object members) v
  | item {index : Nat} {items : List Json} {v : Json} (h : items[index]? = some v) :
      Child (.item index) (.array items) v

/-- What is found in data under keys, one after the other. -/
inductive At : List Key → Json → Json → Prop
  | here (j : Json) : At [] j j
  | step {key : Key} {keys : List Key} {j k v : Json} (hchild : Child key j k)
      (hrest : At keys k v) : At (key :: keys) j v

end Json

namespace Text

theorem readNat?_eq_some_iff {cs : List Char} {n : Nat} :
    readNat? cs = some n ↔
      cs ≠ [] ∧ (∀ c ∈ cs, c.isDigit = true) ∧ Nat.ofDigitChars 10 cs 0 = n := by
  unfold readNat?
  by_cases h : cs ≠ [] ∧ cs.all Char.isDigit = true
  · rw [if_pos h, Option.some_inj]
    exact ⟨fun hn => ⟨h.1, List.all_eq_true.1 h.2, hn⟩, fun hn => hn.2.2⟩
  · rw [if_neg h]
    exact iff_of_false nofun fun hn => h ⟨hn.1, List.all_eq_true.2 hn.2.1⟩

/-- The segments that are positions. -/
theorem readIndex?_eq_some_iff {segment : String} {index : Nat} :
    readIndex? segment.toList = some index ↔ Json.Key.Spells segment (.item index) := by
  constructor
  · intro h
    -- The sign is optional, and digits are needed after it as they are without it.
    unfold readIndex? at h
    split at h
    · next cs heq =>
        rcases readNat?_eq_some_iff.1 h with ⟨hne, hdigits, rfl⟩
        exact .item hne hdigits (Or.inr heq)
    · rcases readNat?_eq_some_iff.1 h with ⟨hne, hdigits, rfl⟩
      exact .item hne hdigits (Or.inl rfl)
  · intro h
    cases h with
    | @item digits hne hdigits hsegment =>
        have hread : readNat? digits = some (Nat.ofDigitChars 10 digits 0) :=
          readNat?_eq_some_iff.2 ⟨hne, hdigits, rfl⟩
        rcases hsegment with heq | heq
        · -- Digits do not begin with a sign.
          rw [heq, readIndex?.eq_2 digits (ne_cons_of_digits hdigits rfl), hread]
        · rw [heq, readIndex?, hread]

end Text

namespace Json

theorem Key.toList_text_item (index : Nat) :
    (Key.item index).text.toList = Nat.toDigits 10 index :=
  Nat.toList_repr

/-- A key is what is read of its text. -/
theorem Key.spells_text (key : Key) : Spells key.text key := by
  cases key with
  | member name => exact .member name
  | item index =>
      have hspells := Spells.item Nat.toDigits_ne_nil
        (fun d hd => Text.isDigit_of_mem_toDigits hd) (Or.inl (toList_text_item index))
      rwa [Nat.ofDigitChars_ten_toDigits] at hspells

/-- There are no dots in the text of a position. -/
theorem Key.plain_text {key : Key} (h : ∀ name, key = .member name → Path.Plain name) :
    Path.Plain key.text := by
  cases key with
  | member name => exact h name rfl
  | item index =>
      intro hdot
      rw [toList_text_item] at hdot
      exact absurd (Text.isDigit_of_mem_toDigits hdot) (by decide)

/-- A reader that refuses all positions from a limit on, as one with machine integers
    does, takes the same steps into arrays that are within the limit. -/
theorem child?_of_limit {items : List Json} {limit : Nat} (hlimit : items.length ≤ limit)
    (segment : String) :
    (Json.array items).child? segment =
      ((Text.readIndex? segment.toList).filter (· < limit)).bind fun i => items[i]? := by
  rw [child?]
  cases Text.readIndex? segment.toList with
  | none => rfl
  | some i =>
      rw [Option.filter_some]
      by_cases hi : i < limit
      · rw [if_pos (decide_eq_true hi)]
      · have hpast : items.length ≤ i := by omega
        rw [if_neg fun h => hi (of_decide_eq_true h), Option.bind_some, Option.bind_none,
          List.getElem?_eq_none hpast]

theorem Child.canonical {key : Key} {j v : Json} (h : Child key j v) (hj : j.Canonical) :
    v.Canonical := by
  cases h with
  | member h =>
      cases hj with
      | object _ _ hmembers => exact hmembers _ h
  | item h =>
      cases hj with
      | array _ hitems => exact hitems v (List.mem_of_getElem? h)

/-- One step into data: along a segment that can be read as a key. -/
theorem child?_eq_some_iff {segment : String} {j v : Json} (hj : j.Canonical) :
    j.child? segment = some v ↔ ∃ key, Key.Spells segment key ∧ Child key j v := by
  cases j with
  | object members =>
      cases hj with
      | object _ hascending _ =>
          have hdistinct : members.Pairwise fun a b => a.1 ≠ b.1 :=
            Bindings.names_distinct ⟨members, hascending⟩
          rw [child?, Bindings.lookup_eq_some_iff_mem hdistinct]
          constructor
          · exact fun h => ⟨.member segment, .member segment, .member h⟩
          · rintro ⟨key, hspells, hchild⟩
            cases hchild with
            | member h =>
                cases hspells with
                | member => exact h
  | array items =>
      rw [child?, Option.bind_eq_some_iff]
      constructor
      · rintro ⟨index, hindex, h⟩
        exact ⟨.item index, Text.readIndex?_eq_some_iff.1 hindex, .item h⟩
      · rintro ⟨key, hspells, hchild⟩
        cases hchild with
        | @item index _ _ h => exact ⟨index, Text.readIndex?_eq_some_iff.2 hspells, h⟩
  | _ => exact iff_of_false nofun fun ⟨_, _, hchild⟩ => nomatch hchild

/-- Steps into data, one after the other, along segments that can be read as keys. -/
theorem descend?_eq_some_iff {steps : List String} {j v : Json} (hj : j.Canonical) :
    j.descend? steps = some v ↔ ∃ keys, List.Forall₂ Key.Spells steps keys ∧ At keys j v := by
  induction steps generalizing j with
  | nil =>
      rw [descend?, Option.some_inj]
      constructor
      · rintro rfl
        exact ⟨[], .nil, .here j⟩
      · rintro ⟨keys, hspells, hat⟩
        cases hspells
        cases hat
        rfl
  | cons segment rest ih =>
      -- Parts of canonical data are canonical, so the rest of the way is one below the child.
      rw [descend?, Option.bind_eq_some_iff]
      constructor
      · rintro ⟨k, hchild, hrest⟩
        rcases (child?_eq_some_iff hj).1 hchild with ⟨key, hkey, hchild⟩
        rcases (ih (hchild.canonical hj)).1 hrest with ⟨keys, hkeys, hat⟩
        exact ⟨key :: keys, .cons hkey hkeys, .step hchild hat⟩
      · rintro ⟨keys, hspells, hat⟩
        cases hspells with
        | cons hkey hkeys =>
            cases hat with
            | step hchild hat =>
                exact ⟨_, (child?_eq_some_iff hj).2 ⟨_, hkey, hchild⟩,
                  (ih (hchild.canonical hj)).2 ⟨_, hkeys, hat⟩⟩

end Json

namespace Context

variable {c : Context}

theorem get?_of_bound {name : String} {j : Json} (h : c.bindings.get? name = some j) :
    c.get? name = some j := by
  rw [get?, h]

theorem canonical_of_bound {name : String} {j : Json} (h : c.bindings.get? name = some j) :
    j.Canonical :=
  c.canonical (name, j) ((Bindings.lookup_eq_some_iff_mem c.bindings.names_distinct).1 h)

/-- A name that is not bound itself is a path that starts at its first segment. -/
theorem get?_of_splits {name root : String} {steps : List String}
    (hsplits : Path.Splits name (root :: steps)) (hunbound : c.bindings.get? name = none)
    (v : Json) : c.get? name = some v ↔ ∃ j keys, c.bindings.get? root = some j ∧
      List.Forall₂ Json.Key.Spells steps keys ∧ Json.At keys j v := by
  -- The segments are the ones that the name is split into, there being no others.
  rw [get?, hunbound, ← Path.splits_iff.1 hsplits]
  simp only [Option.bind_eq_some_iff]
  refine exists_congr fun j => ?_
  rw [exists_and_left]
  exact and_congr_right fun hj => Json.descend?_eq_some_iff (canonical_of_bound hj)

/-- A position below a bound name is found under the name that its keys make. -/
theorem get?_join {root : String} {j v : Json} {keys : List Json.Key}
    (hroot : c.bindings.get? root = some j) (hplain : Path.Plain root)
    (hkeys : ∀ name, .member name ∈ keys → Path.Plain name) (hat : Json.At keys j v)
    (hunbound : c.bindings.get? (Path.join (root :: keys.map Json.Key.text)) = none) :
    c.get? (Path.join (root :: keys.map Json.Key.text)) = some v := by
  have htexts : ∀ s ∈ keys.map Json.Key.text, Path.Plain s :=
    List.forall_mem_map.2 fun _ hkey => Json.Key.plain_text fun name heq => hkeys name (heq ▸ hkey)
  have hsplits : Path.Splits (Path.join (root :: keys.map Json.Key.text))
      (root :: keys.map Json.Key.text) :=
    ⟨List.cons_ne_nil _ _, List.forall_mem_cons.2 ⟨hplain, htexts⟩, rfl⟩
  refine (get?_of_splits hsplits hunbound v).2 ⟨j, keys, hroot, ?_, hat⟩
  exact List.forall₂_map_left_iff.2 (List.forall₂_same.2 fun key _ => key.spells_text)

/-- A bound name stands for what it is bound to. Any other name leads to the values that
    are found below its first segment, if that is bound, under keys that the other segments
    can be read as, and to nothing else. Every value below a bound name without dots is
    found under the name that the keys make, provided that their own names have no dots,
    unless that name is bound to something itself. Positions are not bounded, but a reader
    that refuses what has more than 64 binary digits would find the same. -/
theorem get?_resolves (c : Context) :
    (∀ name j, c.bindings.get? name = some j → c.get? name = some j) ∧
    (∀ name, c.bindings.get? name = none →
      ∃ root steps, (∀ segments, Path.Splits name segments ↔ segments = root :: steps) ∧
        ∀ v, c.get? name = some v ↔ ∃ j keys, c.bindings.get? root = some j ∧
          List.Forall₂ Json.Key.Spells steps keys ∧ Json.At keys j v) ∧
    (∀ root j keys v, c.bindings.get? root = some j → Path.Plain root →
      (∀ name, .member name ∈ keys → Path.Plain name) → Json.At keys j v →
      let name := Path.join (root :: keys.map Json.Key.text)
      c.get? name = some ((c.bindings.get? name).getD v)) ∧
    ∀ items : List Json, items.length ≤ 2 ^ 64 → ∀ segment,
      (Json.array items).child? segment =
        ((Text.readIndex? segment.toList).filter (· < 2 ^ 64)).bind fun i => items[i]? := by
  refine ⟨fun name j => get?_of_bound, fun name hunbound => ?_, ?_, fun _ => Json.child?_of_limit⟩
  · rcases List.exists_cons_of_ne_nil (Path.segments_ne_nil name) with ⟨root, steps, hsegments⟩
    have hsplits : ∀ l, Path.Splits name l ↔ l = root :: steps :=
      fun l => hsegments ▸ Path.splits_iff
    exact ⟨root, steps, hsplits, get?_of_splits ((hsplits _).2 rfl) hunbound⟩
  · intro root j keys v hroot hplain hkeys hat name
    cases hbound : c.bindings.get? name with
    | some w => exact get?_of_bound hbound
    | none => exact get?_join hroot hplain hkeys hat hbound

/-- Both `"user.tags.0"` and `"user.tags.+01"` lead to tags, whereas `"user.tags.1"` is the
    name of a variable of its own here. -/
theorem get?_resolves_tags :
    let tags : Json := .array [.string "a", .string "b"]
    let user : Json := .object [("tags", tags)]
    let c := (empty.set "user" user).set "user.tags.1" .null
    c.bindings.get? "user" = some user ∧ c.bindings.get? "user.tags.+01" = none ∧
      c.get? "user.tags.1" = some .null ∧ c.get? "user.tags.+01" = some (.string "b") ∧
      c.get? "user.tags.0" = some (.string "a") := by
  intro tags user c
  have hroot : c.bindings.get? "user" = some user := rfl
  have hunbound : c.bindings.get? "user.tags.+01" = none := rfl
  rcases get?_resolves c with ⟨hbound, hpath, hposition, -⟩
  have htags : Json.Child (.member "tags") user tags := .member List.mem_cons_self
  refine ⟨hroot, hunbound, hbound "user.tags.1" .null rfl, ?_, ?_⟩
  · rcases hpath "user.tags.+01" hunbound with ⟨root, steps, hsplits, hget⟩
    have hsegments : Path.Splits "user.tags.+01" ["user", "tags", "+01"] :=
      ⟨by decide, by decide, by decide⟩
    cases (hsplits _).1 hsegments
    -- The last segment has a sign and a zero too many, and is a position all the same.
    have hindex : Json.Key.Spells "+01" (.item 1) := Text.readIndex?_eq_some_iff.1 rfl
    exact (hget _).2 ⟨user, [.member "tags", .item 1], hroot,
      .cons (.member "tags") (.cons hindex .nil), .step htags (.step (.item rfl) (.here _))⟩
  · have hat : Json.At [.member "tags", .item 0] user (.string "a") :=
      .step htags (.step (.item rfl) (.here _))
    have hkeys : ∀ name, .member name ∈ [Json.Key.member "tags", .item 0] → Path.Plain name := by
      intro name hname
      have heq : name = "tags" := by simpa using hname
      rw [heq]
      decide
    exact hposition "user" user _ _ hroot (by decide) hkeys hat

end Context

end Criteria
