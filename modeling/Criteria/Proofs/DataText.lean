import Criteria.Context
import Criteria.Proofs.Documents

/-!
# Data and its Documents

What is known of data that becomes a document and is taken from one again.

Three things are added to what is known of documents. Arrays and objects are read item
by item, and what becomes of a list that is read in this way is worked out once for all
lists. A reader counts brackets, and the count can be taken of the data. And it brings
what it has read into canonical form, which must leave data alone that is in this form
already. That comes down to maps: a map is its look-ups, so inserting its entries one
after the other gives the map back, in whatever order this is done.

## Theorems

* `Bindings.ext_get?`: Maps with the same look-ups are equal.
* `Bindings.ofList_perm`: A map is made of its entries in any order.
* `Json.Document.mapM_map`: What is read of a list that was written item by item.
* `Json.Document.mapM_congr`, `mapM_eq_none`, `exists_mem_of_mapM`: Reading of lists comes
  down to reading of items.
* `Json.canonical_of_canonical`: Canonical data is its own canonical form.
* `Json.nesting_array_le_iff`, `Json.nesting_object_le_iff`: Arrays and objects are
  nested one deeper than what they hold.
* `Json.toDocument_definite`: Documents of data have no void literals.
* `Json.denote?_toDocument`: What a document of data denotes within a limit.
-/

namespace Criteria

namespace Bindings

variable {α : Type}

/-- Where no name comes twice, a name is found with what it stands next to. -/
theorem lookup_eq_some_iff_mem {l : List (String × α)} (h : l.Pairwise fun a b => a.1 ≠ b.1)
    {name : String} {a : α} : l.lookup name = some a ↔ (name, a) ∈ l := by
  induction h with
  | nil => exact iff_of_false nofun List.not_mem_nil
  | @cons first rest hfirst _ ih =>
      obtain ⟨key, b⟩ := first
      rw [lookup_cons, List.mem_cons]
      by_cases hkey : name = key
      · subst hkey
        have hrest : (name, a) ∉ rest := fun hmem => hfirst _ hmem rfl
        rw [if_pos rfl, or_iff_left hrest, Option.some_inj, Prod.mk_right_inj, eq_comm]
      · have hne : (name, a) ≠ (key, b) := fun heq => hkey (congrArg Prod.fst heq)
        rw [if_neg hkey, ih, or_iff_right hne]

theorem names_distinct (m : Bindings α) : m.entries.Pairwise fun a b => a.1 ≠ b.1 := by
  refine m.ascending.imp fun {a b} hlt heq => ?_
  rw [heq] at hlt
  exact String.lt_irrefl _ hlt

/-- Maps with the same look-ups are equal, their entries being in order. -/
theorem ext_get? {m m' : Bindings α} (h : ∀ name, m.get? name = m'.get? name) : m = m' := by
  -- Equal look-ups mean equal entries; in order there is only one way to list them.
  have hmem : ∀ e, e ∈ m.entries ↔ e ∈ m'.entries := by
    intro e
    rw [← lookup_eq_some_iff_mem m.names_distinct, ← lookup_eq_some_iff_mem m'.names_distinct]
    exact Eq.congr_left (h e.1)
  have hnodup : ∀ m : Bindings α, m.entries.Nodup := fun m =>
    m.names_distinct.imp fun hne heq => hne (congrArg Prod.fst heq)
  have hperm := (List.perm_ext_iff_of_nodup (hnodup m) (hnodup m')).2 hmem
  have hentries : m.entries = m'.entries :=
    hperm.eq_of_pairwise (fun a b _ _ hab hba => absurd (String.lt_trans hab hba) (String.lt_irrefl _))
      m.ascending m'.ascending
  cases m
  cases m'
  cases hentries
  rfl

/-- A map is made of its entries, whatever their order. -/
theorem ofList_perm {m : Bindings α} {l : List (String × α)} (h : l.Perm m.entries) :
    ofList l = m := by
  have hperm : l.reverse.Perm m.entries := l.reverse_perm.trans h
  have hdistinct : l.reverse.Pairwise fun a b => a.1 ≠ b.1 :=
    hperm.symm.pairwise m.names_distinct fun hne => hne.symm
  refine ext_get? fun name => Option.ext fun a => ?_
  rw [get?_ofList, get?, lookup_eq_some_iff_mem hdistinct, lookup_eq_some_iff_mem m.names_distinct,
    hperm.mem_iff]

end Bindings

namespace Json

namespace Document

section Lists

variable {α β : Type} {read : β → Option α}

/-- What is read of a list is decided by what is read of its items. -/
theorem mapM_congr {read' : β → Option α} {l : List β} (h : ∀ b ∈ l, read b = read' b) :
    l.mapM read = l.mapM read' := by
  induction l with
  | nil => rfl
  | cons b rest ih =>
      rw [List.mapM_cons, List.mapM_cons, h b List.mem_cons_self,
        ih fun c hc => h c (List.mem_cons_of_mem b hc)]

/-- Nothing is read of a list if nothing is read of one item. -/
theorem mapM_eq_none {l : List β} {b : β} (hb : b ∈ l) (h : read b = none) :
    l.mapM read = none := by
  induction l with
  | nil => cases hb
  | cons c rest ih =>
      rw [List.mapM_cons]
      rcases List.mem_cons.1 hb with rfl | hb
      · rw [h]
        rfl
      · rw [ih hb]
        cases read c <;> rfl

/-- The first of a list that is read, and the rest. -/
theorem mapM_cons_eq_some {b : β} {rest : List β} {l : List α}
    (h : (b :: rest).mapM read = some l) :
    ∃ a others, read b = some a ∧ rest.mapM read = some others ∧ l = a :: others := by
  simp only [List.mapM_cons, Option.bind_eq_bind, Option.bind_eq_some_iff] at h
  obtain ⟨a, ha, others, hothers, hl⟩ := h
  exact ⟨a, others, ha, hothers, (Option.some.inj hl).symm⟩

/-- What is read of a list is read of its items. -/
theorem exists_mem_of_mapM {l : List β} {l' : List α} {a : α} (h : l.mapM read = some l')
    (ha : a ∈ l') : ∃ b ∈ l, read b = some a := by
  induction l generalizing l' with
  | nil =>
      cases h
      cases ha
  | cons b rest ih =>
      obtain ⟨first, others, hfirst, hothers, rfl⟩ := mapM_cons_eq_some h
      rcases List.mem_cons.1 ha with rfl | ha
      · exact ⟨b, List.mem_cons_self, hfirst⟩
      · obtain ⟨c, hc, hread⟩ := ih hothers ha
        exact ⟨c, List.mem_cons_of_mem b hc, hread⟩

/-- A list can be written again as it was read, if each item can. -/
theorem map_of_mapM {write : α → β} (h : ∀ b a, read b = some a → write a = b) {l : List β}
    {l' : List α} (hread : l.mapM read = some l') : l'.map write = l := by
  induction l generalizing l' with
  | nil =>
      cases hread
      rfl
  | cons b rest ih =>
      obtain ⟨a, others, ha, hothers, rfl⟩ := mapM_cons_eq_some hread
      rw [List.map_cons, h b a ha, ih hothers]

/-- A list is read as it was written, if each item is, and not at all if one item is not. -/
theorem mapM_map {write : α → β} {p : α → Prop} [DecidablePred p] {l : List α}
    (h : ∀ a ∈ l, read (write a) = if p a then some a else none) :
    (l.map write).mapM read = if ∀ a ∈ l, p a then some l else none := by
  by_cases hall : ∀ a ∈ l, p a
  · rw [if_pos hall]
    induction l with
    | nil => rfl
    | cons a rest ih =>
        obtain ⟨hfirst, hothers⟩ := List.forall_mem_cons.1 hall
        rw [List.map_cons, List.mapM_cons, h a List.mem_cons_self, if_pos hfirst,
          ih (fun b hb => h b (List.mem_cons_of_mem a hb)) hothers]
        rfl
  · obtain ⟨a, ha, hunread⟩ : ∃ a ∈ l, ¬p a := by
      simpa only [not_forall, exists_prop] using hall
    rw [if_neg hall]
    exact mapM_eq_none (List.mem_map_of_mem ha) (by rw [h a ha, if_neg hunread])

end Lists

/-- An array is nested one deeper than its items. -/
theorem nesting_array_le_iff (items : List Document) (room : Nat) :
    (array items).nesting ≤ room + 1 ↔ ∀ x ∈ items, x.nesting ≤ room := by
  have hitems : itemNesting items ≤ room ↔ ∀ x ∈ items, x.nesting ≤ room := by
    induction items with
    | nil =>
        rw [itemNesting]
        exact iff_of_true (Nat.zero_le _) fun x hx => absurd hx List.not_mem_nil
    | cons x rest ih => rw [itemNesting, Nat.max_le, ih, List.forall_mem_cons]
  rw [nesting, ← hitems]
  omega

/-- An object is nested one deeper than the values of its members. -/
theorem nesting_object_le_iff (members : List (String × Document)) (room : Nat) :
    (object members).nesting ≤ room + 1 ↔ ∀ m ∈ members, m.2.nesting ≤ room := by
  have hmembers : memberNesting members ≤ room ↔ ∀ m ∈ members, m.2.nesting ≤ room := by
    induction members with
    | nil =>
        rw [memberNesting]
        exact iff_of_true (Nat.zero_le _) fun m hm => absurd hm List.not_mem_nil
    | cons m rest ih => rw [memberNesting, Nat.max_le, ih, List.forall_mem_cons]
  rw [nesting, ← hmembers]
  omega

theorem nesting_lt_array {items : List Document} {x : Document} (hx : x ∈ items) :
    x.nesting < (array items).nesting := by
  have hroom : (array items).nesting = itemNesting items + 1 := by rw [nesting, Nat.add_comm]
  have hitem := (nesting_array_le_iff items (itemNesting items)).1 (Nat.le_of_eq hroom) x hx
  omega

theorem nesting_lt_object {members : List (String × Document)} {m : String × Document}
    (hm : m ∈ members) : m.2.nesting < (object members).nesting := by
  have hroom : (object members).nesting = memberNesting members + 1 := by rw [nesting, Nat.add_comm]
  have hmember :=
    (nesting_object_le_iff members (memberNesting members)).1 (Nat.le_of_eq hroom) m hm
  omega

end Document

/-- Induction on data, with the items of an array and the members of an object all at
    once. -/
@[elab_as_elim]
theorem induct {motive : Json → Prop} (null : motive .null) (bool : ∀ b, motive (.bool b))
    (number : ∀ n, motive (.number n)) (string : ∀ s, motive (.string s))
    (array : ∀ items, (∀ x ∈ items, motive x) → motive (.array items))
    (object : ∀ members, (∀ m ∈ members, motive m.2) → motive (.object members))
    (j : Json) : motive j :=
  @Json.rec motive (fun items => ∀ x ∈ items, motive x) (fun members => ∀ m ∈ members, motive m.2)
    (fun m => motive m.2) null bool number string array object
    (fun _ h => absurd h List.not_mem_nil)
    (fun _ _ hhead htail _ h => (List.mem_cons.1 h).elim (fun h => h ▸ hhead) (htail _))
    (fun _ h => absurd h List.not_mem_nil)
    (fun _ _ hhead htail _ h => (List.mem_cons.1 h).elim (fun h => h ▸ hhead) (htail _))
    (fun _ _ h => h) j

theorem canonicalItems_eq_map (items : List Json) : canonicalItems items = items.map canonical := by
  induction items with
  | nil => rw [canonicalItems, List.map_nil]
  | cons x rest ih => rw [canonicalItems, List.map_cons, ih]

theorem canonicalMembers_eq_map (members : List (String × Json)) :
    canonicalMembers members = members.map fun m => (m.1, m.2.canonical) := by
  induction members with
  | nil => rw [canonicalMembers, List.map_nil]
  | cons m rest ih => rw [canonicalMembers, List.map_cons, ih]

theorem itemDocuments_eq_map (items : List Json) : itemDocuments items = items.map toDocument := by
  induction items with
  | nil => rw [itemDocuments, List.map_nil]
  | cons x rest ih => rw [itemDocuments, List.map_cons, ih]

theorem memberDocuments_eq_map (members : List (String × Json)) :
    memberDocuments members = members.map fun m => (m.1, m.2.toDocument) := by
  induction members with
  | nil => rw [memberDocuments, List.map_nil]
  | cons m rest ih => rw [memberDocuments, List.map_cons, ih]

/-- Members with canonical values are not changed by taking canonical forms. -/
theorem canonicalMembers_of_canonical {members : List (String × Json)}
    (h : ∀ m ∈ members, m.2.canonical = m.2) : canonicalMembers members = members := by
  rw [canonicalMembers_eq_map]
  refine (List.map_congr_left fun m hm => ?_).trans (List.map_id members)
  rw [h m hm, id]

/-- Canonical data is its own canonical form. -/
theorem canonical_of_canonical {j : Json} (h : j.Canonical) : j.canonical = j := by
  induction h with
  | null => rw [canonical]
  | bool b => rw [canonical]
  | number n => rw [canonical]
  | string s => rw [canonical]
  | array items _ ih =>
      have hitems : items.map canonical = items :=
        (List.map_congr_left ih).trans (List.map_id items)
      rw [canonical, canonicalItems_eq_map, hitems]
  | object members ascending _ ih =>
      -- The members stand in order already, and inserting them one by one keeps them.
      rw [canonical, canonicalMembers_of_canonical ih,
        Bindings.ofList_perm (m := ⟨members, ascending⟩) (List.Perm.refl _)]

/-- The document of data has only literals that denote something. -/
theorem toDocument_definite (j : Json) : j.toDocument.Definite := by
  induction j using Json.induct with
  | null => exact .null
  | bool b => exact .bool b
  | number n => exact .number n
  | string s => exact .string s
  | array items ih =>
      rw [toDocument, itemDocuments_eq_map]
      refine .array _ fun x hx => ?_
      obtain ⟨y, hy, rfl⟩ := List.mem_map.1 hx
      exact ih y hy
  | object members ih =>
      rw [toDocument, memberDocuments_eq_map]
      refine .object _ fun m hm => ?_
      obtain ⟨m', hm', rfl⟩ := List.mem_map.1 hm
      exact ih m' hm'

theorem nesting_array_le_iff (items : List Json) (room : Nat) :
    (array items).nesting ≤ room + 1 ↔ ∀ x ∈ items, x.nesting ≤ room := by
  rw [nesting, toDocument, itemDocuments_eq_map, Document.nesting_array_le_iff, List.forall_mem_map]
  exact Iff.rfl

theorem nesting_object_le_iff (members : List (String × Json)) (room : Nat) :
    (object members).nesting ≤ room + 1 ↔ ∀ m ∈ members, m.2.nesting ≤ room := by
  rw [nesting, toDocument, memberDocuments_eq_map, Document.nesting_object_le_iff,
    List.forall_mem_map]
  exact Iff.rfl

/-- What the document of data denotes is the data, if there is room for its brackets,
    and nothing otherwise. -/
theorem denote?_toDocument (j : Json) :
    ∀ room, j.toDocument.denote? room = if j.nesting ≤ room then some j else none := by
  induction j using Json.induct with
  | null | bool _ | number _ | string _ =>
      intro room
      rw [nesting, toDocument, Document.denote?, Document.nesting, if_pos (Nat.zero_le room)]
  | array items ih =>
      intro room
      cases room with
      | zero => exact (if_neg (by rw [nesting, toDocument, Document.nesting]; omega)).symm
      | succ room =>
          -- One bracket is taken, and every item is read in what is left.
          rw [toDocument, itemDocuments_eq_map, Document.denote?,
            Document.mapM_map fun x hx => ih x hx room]
          simp only [nesting_array_le_iff]
          split <;> rfl
  | object members ih =>
      intro room
      cases room with
      | zero => exact (if_neg (by rw [nesting, toDocument, Document.nesting]; omega)).symm
      | succ room =>
          have hread : ∀ m ∈ members, (Document.denote? room m.2.toDocument).map (m.1, ·) =
              if m.2.nesting ≤ room then some m else none := by
            intro m hm
            rw [ih m hm room]
            split <;> rfl
          rw [toDocument, memberDocuments_eq_map, Document.denote?,
            @Document.mapM_map (String × Json) (String × Document)
              (fun m => (Document.denote? room m.2).map (m.1, ·)) (fun m => (m.1, m.2.toDocument))
              (fun m => m.2.nesting ≤ room) _ members hread]
          simp only [nesting_object_le_iff]
          split <;> rfl

end Json

end Criteria
