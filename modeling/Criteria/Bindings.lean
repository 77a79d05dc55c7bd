/-!
# Bindings

Finite maps from names to values.

A map is kept as a list of entries in strictly ascending order of names, so
that equal maps are equal values and the names come out sorted. Names are
compared by code points.

## Main definitions

* `Bindings`: A finite map with names as keys.
* `get?`, `insert`, `ofList`: Look-up, binding a name, binding several in turn.
* `names`, `size`, `contains`: What is bound.

## Theorems

* `get?_insert`: A look-up sees the last binding of its own name only.
* `get?_ofList`: Of several bindings of a name in a list the last one counts.
* `mem_insert`: Where the entries of a grown map come from.
-/

namespace Criteria

universe u

/-- A finite map from names, its entries in strictly ascending order. -/
structure Bindings (α : Type u) where
  entries : List (String × α)
  ascending : entries.Pairwise fun a b => a.1 < b.1

namespace Bindings

variable {α : Type u}

/-- The map that binds nothing. -/
def empty : Bindings α := ⟨[], List.Pairwise.nil⟩

instance : Inhabited (Bindings α) := ⟨empty⟩

/-- An entry put at its place in a list of ascending entries, in place of the
    one of the same name if there is one. -/
def insertEntry (name : String) (a : α) : List (String × α) → List (String × α)
  | [] => [(name, a)]
  | (key, b) :: rest =>
    if name < key then (name, a) :: (key, b) :: rest
    else if name = key then (name, a) :: rest
    else (key, b) :: insertEntry name a rest

theorem mem_insertEntry {name : String} {a : α} {l : List (String × α)} {e : String × α}
    (h : e ∈ insertEntry name a l) : e = (name, a) ∨ e ∈ l := by
  induction l with
  | nil => exact Or.inl (List.mem_singleton.1 h)
  | cons entry rest ih =>
      obtain ⟨key, b⟩ := entry
      simp only [insertEntry] at h
      split at h
      · exact (List.mem_cons.1 h).imp id id
      · split at h
        · exact (List.mem_cons.1 h).imp id (List.mem_cons_of_mem _)
        · rcases List.mem_cons.1 h with h | h
          · exact Or.inr (h ▸ List.mem_cons_self)
          · exact (ih h).imp id (List.mem_cons_of_mem _)

theorem insertEntry_ascending {name : String} {a : α} {l : List (String × α)}
    (h : l.Pairwise fun a b => a.1 < b.1) :
    (insertEntry name a l).Pairwise fun a b => a.1 < b.1 := by
  induction l with
  | nil => exact List.pairwise_singleton _ _
  | cons entry rest ih =>
      obtain ⟨key, b⟩ := entry
      obtain ⟨hkey, hrest⟩ := List.pairwise_cons.1 h
      simp only [insertEntry]
      split
      · next hlt =>
          refine List.pairwise_cons.2 ⟨fun e he => ?_, h⟩
          rcases List.mem_cons.1 he with rfl | he
          · exact hlt
          · exact String.lt_trans hlt (hkey e he)
      · next hlt =>
          split
          · next heq => exact List.pairwise_cons.2 ⟨heq ▸ hkey, hrest⟩
          · next hne =>
              refine List.pairwise_cons.2 ⟨fun e he => ?_, ih hrest⟩
              rcases mem_insertEntry he with rfl | he
              · -- The key is neither above nor equal to the name, so it is below.
                exact Decidable.byContradiction fun hnlt =>
                  hne (String.le_antisymm (String.not_lt.1 hnlt) (String.not_lt.1 hlt))
              · exact hkey e he

/-- A map with one name bound, whatever it was bound to before. -/
def insert (m : Bindings α) (name : String) (a : α) : Bindings α :=
  ⟨insertEntry name a m.entries, insertEntry_ascending m.ascending⟩

/-- The map of a list of bindings made one after the other. -/
def ofList (l : List (String × α)) : Bindings α :=
  l.foldl (fun m e => m.insert e.1 e.2) empty

/-- What a name is bound to. -/
def get? (m : Bindings α) (name : String) : Option α :=
  m.entries.lookup name

/-- The bound names, in ascending order. -/
def names (m : Bindings α) : List String :=
  m.entries.map Prod.fst

/-- How many names are bound. -/
def size (m : Bindings α) : Nat :=
  m.entries.length

/-- Whether a name is bound. -/
def contains (m : Bindings α) (name : String) : Bool :=
  (m.get? name).isSome

@[simp] theorem get?_empty (name : String) : (empty : Bindings α).get? name = none := rfl

/-- A look-up in a list of entries, as a case distinction on names. -/
theorem lookup_cons (key : String) (e : String × α) (l : List (String × α)) :
    (e :: l).lookup key = if key = e.1 then some e.2 else l.lookup key := by
  rw [List.lookup_cons]
  by_cases h : key = e.1
  · rw [if_pos h, beq_iff_eq.2 h]
  · rw [if_neg h, beq_eq_false_iff_ne.2 h]

theorem lookup_insertEntry (name key : String) (a : α) (l : List (String × α)) :
    (insertEntry name a l).lookup key = if key = name then some a else l.lookup key := by
  induction l with
  | nil => exact lookup_cons key (name, a) []
  | cons entry rest ih =>
      obtain ⟨other, b⟩ := entry
      simp only [insertEntry]
      split
      · exact lookup_cons key (name, a) _
      · split
        · next heq =>
            rw [lookup_cons, lookup_cons]
            subst heq
            split <;> rfl
        · next hne =>
            rw [lookup_cons, lookup_cons, ih]
            by_cases h : key = name
            · rw [if_neg (fun h' => hne (h.symm.trans h')), if_pos h, if_pos h]
            · rw [if_neg h, if_neg h]

@[simp] theorem get?_insert (m : Bindings α) (name key : String) (a : α) :
    (m.insert name a).get? key = if key = name then some a else m.get? key :=
  lookup_insertEntry name key a m.entries

theorem mem_insert {m : Bindings α} {name : String} {a : α} {e : String × α}
    (h : e ∈ (m.insert name a).entries) : e = (name, a) ∨ e ∈ m.entries :=
  mem_insertEntry h

/-- Every entry of a map made from a list stands in the list. -/
theorem mem_ofList {l : List (String × α)} {e : String × α} (h : e ∈ (ofList l).entries) :
    e ∈ l := by
  suffices ∀ m : Bindings α, e ∈ (l.foldl (fun m e => m.insert e.1 e.2) m).entries →
      e ∈ m.entries ∨ e ∈ l by
    exact (this empty h).resolve_left List.not_mem_nil
  clear h
  induction l with
  | nil => exact fun m h => Or.inl h
  | cons entry rest ih =>
      intro m h
      rcases ih (m.insert entry.1 entry.2) h with h | h
      · exact (mem_insert h).elim (fun h => Or.inr (h ▸ List.mem_cons_self)) Or.inl
      · exact Or.inr (List.mem_cons_of_mem _ h)

/-- Of several bindings of a name in a list the last one counts. -/
theorem get?_ofList (l : List (String × α)) (key : String) :
    (ofList l).get? key = l.reverse.lookup key := by
  suffices ∀ m : Bindings α, (l.foldl (fun m e => m.insert e.1 e.2) m).get? key =
      (l.reverse.lookup key).or (m.get? key) by
    rw [ofList, this, get?_empty, Option.or_none]
  induction l with
  | nil => exact fun m => rfl
  | cons entry rest ih =>
      intro m
      rw [List.foldl_cons, ih, List.reverse_cons, List.lookup_append, get?_insert, Option.or_assoc]
      congr 1
      rw [lookup_cons, List.lookup_nil]
      split <;> rfl

end Bindings

end Criteria
