import Criteria.Proofs.DataText
import Criteria.Proofs.Literals

/-!
# Documents Read

The reader for JSON text keeps to the grammar, and misses nothing of it.

A reader that gives a document and a rest has found a word of the grammar in front of
the rest; the induction is on its fuel, with one rule for each branch that it takes.
The other way round the induction is on the word. A word is read in front of any rest
that no number goes on into, with twice its length for fuel, since every character
starts at most one value and belongs to at most one item besides. In the grammar a
word may begin with blanks that a reader has passed over before it looked, so blanks
are taken off on both sides alike.

With this the library at hand is seen to be lawful, and what has been asked of
libraries turns out to be something that a library can do.

## Main definitions

* `Reader.Ends`: Text that no number goes on into.

## Theorems

* `Reader.value?_complete`: What the grammar has is read.
* `Reader.sound`: Nothing is read but what the grammar has.
* `Document.read?_of_spells`, `Document.spells_of_read?`: The two for whole texts.
* `Library.standard_lawful`: The library at hand is lawful.
-/

namespace Criteria

namespace Json

namespace Grammar

/-- A value starts with neither a blank nor a closing bracket. -/
theorem Value.head {N : NumberFormat} {text rest : List Char} {d : Document}
    (h : Value N text d rest) :
    ∃ c cs, text = c :: cs ∧ c ∉ [' ', '\t', '\n', '\r'] ∧ c ≠ ']' := by
  cases h with
  | null => exact ⟨'n', _, rfl, by decide, by decide⟩
  | true => exact ⟨'t', _, rfl, by decide, by decide⟩
  | false => exact ⟨'f', _, rfl, by decide, by decide⟩
  | string => exact ⟨'"', _, rfl, by decide, by decide⟩
  | positive rest hliteral hn =>
      obtain ⟨c, cs, hdigit, rfl⟩ := hliteral.head
      have hclosing : c ∉ [']'] := Reader.not_mem_of_isDigit hdigit rfl
      exact ⟨c, _, rfl, Reader.not_mem_of_isDigit hdigit rfl,
        fun hc => hclosing (List.mem_singleton.2 hc)⟩
  | negative => exact ⟨'-', _, rfl, by decide, by decide⟩
  | noItems | array => exact ⟨'[', _, rfl, by decide, by decide⟩
  | noMembers | object => exact ⟨'\x7b', _, rfl, by decide, by decide⟩

end Grammar

namespace Reader

open Grammar (Blanks)

/-- A digit starts a number. -/
theorem value?_digit {c : Char} (h : c.isDigit = true) (fuel : Nat) (rest : List Char) :
    value? (fuel + 1) (c :: rest) = scanNumber? false (c :: rest) := by
  have hother : c ∉ ['n', 't', 'f', '"', '[', '{', '-'] := not_mem_of_isDigit h rfl
  have hblank : c ∉ [' ', '\t', '\n', '\r'] := not_mem_of_isDigit h rfl
  rw [value?, skipBlanks_cons hblank]
  split
  case h_8 => rfl
  all_goals
    next heq =>
      rw [(List.cons.inj heq).1] at hother
      exact absurd (by decide) hother

/-- Blanks in front of a value are skipped, and so they are in front of items and of
    members. -/
theorem value?_blanks {text value : List Char} (h : Blanks text value) (fuel : Nat) :
    value? fuel text = value? fuel value := by
  cases fuel with
  | zero => rw [value?, value?]
  | succ fuel => rw [value?, value?, skipBlanks_eq h]

theorem items?_blanks {text items : List Char} (h : Blanks text items) (fuel : Nat) :
    items? fuel text = items? fuel items := by
  cases fuel with
  | zero => rw [items?, items?]
  | succ fuel => rw [items?, items?, value?_blanks h]

theorem members?_blanks {text members : List Char} (h : Blanks text members) (fuel : Nat) :
    members? fuel text = members? fuel members := by
  cases fuel with
  | zero => rw [members?, members?]
  | succ fuel => rw [members?, members?, skipBlanks_eq h]

/-- A bracket opens an array, which has items unless it is closed at once. -/
theorem value?_bracket {c : Char} {text rest : List Char} (htext : skipBlanks text = c :: rest)
    (hclosing : c ≠ ']') (fuel : Nat) : value? (fuel + 1) ('[' :: text) =
      (items? fuel text).map fun read => (.array read.1, read.2) := by
  rw [items?_blanks (blanks_of_skipBlanks htext), value?, skipBlanks_cons (by decide)]
  split
  case h_5 heq =>
    rw [← (List.cons.inj heq).2, htext]
    split
    · next hclosed => exact absurd (List.cons.inj hclosed).1 hclosing
    · rfl
  case h_8 hother _ _ => exact absurd rfl (hother _)
  all_goals
    next heq => exact absurd (List.cons.inj heq).1 (by decide)

/-- A brace opens an object, and a quote behind it its first member. -/
theorem value?_brace {text rest : List Char} (htext : skipBlanks text = '"' :: rest)
    (fuel : Nat) : value? (fuel + 1) ('{' :: text) =
      (members? fuel text).map fun read => (read.1.object, read.2) := by
  rw [members?_blanks (blanks_of_skipBlanks htext), value?, skipBlanks_cons (by decide)]
  simp only [htext]
  rfl

theorem value?_string {text cs rest : List Char} (h : Grammar.Characters text cs rest)
    (fuel : Nat) : value? (fuel + 1) ('"' :: text) = some (.string (String.ofList cs), rest) := by
  obtain ⟨pieces, hscan, hassemble⟩ := scanString?_complete h
  rw [value?, skipBlanks_cons (by decide)]
  simp only [hscan, Option.bind_eq_bind, Option.bind_some, hassemble]
  rfl

/-- Text that no number goes on into. -/
def Ends (rest : List Char) : Prop :=
  ∀ c ∈ rest.head?, inNumber c = false

theorem inNumber_of_blank {c : Char} (h : c ∈ [' ', '\t', '\n', '\r']) : inNumber c = false := by
  simp only [List.mem_cons, List.not_mem_nil, or_false] at h
  rcases h with rfl | rfl | rfl | rfl <;> rfl

/-- No number goes on into blanks. -/
theorem Ends.of_blanks {text rest : List Char} (h : Blanks text rest) (hrest : Ends rest) :
    Ends text := by
  cases h with
  | none => exact hrest
  | more hc _ => exact fun _ hd => Option.some.inj hd ▸ inNumber_of_blank hc

theorem ends_cons {c : Char} (h : inNumber c = false) (rest : List Char) : Ends (c :: rest) :=
  fun _ hd => Option.some.inj hd ▸ h

theorem head_items {text rest : List Char} {items : List Document}
    (h : Grammar.Items .nearest text items rest) :
    ∃ c cs, skipBlanks text = c :: cs ∧ c ≠ ']' := by
  cases h with
  | last hbefore hvalue hbehind | more hbefore hvalue hbehind h =>
      obtain ⟨c, cs, rfl, hblank, hclosing⟩ := hvalue.head
      exact ⟨c, cs, skipBlanks_of_blanks hbefore hblank, hclosing⟩

theorem head_members {text rest : List Char} {members : List (String × Document)}
    (h : Grammar.Members .nearest text members rest) : ∃ cs, skipBlanks text = '"' :: cs := by
  have hmember : ∀ {m behind}, Grammar.Member .nearest text m behind →
      ∃ cs, skipBlanks text = '"' :: cs := by
    intro m behind h
    cases h with
    | mk hname => exact ⟨_, skipBlanks_of_blanks hname (by decide)⟩
  cases h with
  | last h | more h => exact hmember h

theorem Members.cons_some (name : String) (x : Document) (members : List (String × Document)) :
    Members.cons (some name.toList) x (some members) = some ((name, x) :: members) :=
  congrArg (fun s => (some ((s, x) :: members) : Members)) String.ofList_toList

mutual

/-- What the grammar has as a value is read as the document it spells. Every character
    is fuel for two calls, one for what it starts and one for the item it is part of. -/
theorem value?_complete {text rest : List Char} {d : Document} :
    Grammar.Value .nearest text d rest → Ends rest → ∀ fuel, 2 * text.length ≤ fuel →
      value? fuel text = some (d, rest)
  | .null _, _, fuel + 1, _ => rfl
  | .true _, _, fuel + 1, _ => rfl
  | .false _, _, fuel + 1, _ => rfl
  | .string h, _, fuel + 1, _ => value?_string h fuel
  | .positive _ hliteral hn, hrest, fuel, hfuel => by
      have hscan := scanNumber?_complete hliteral hn hrest
      obtain ⟨c, cs, hdigit, rfl⟩ := hliteral.head
      obtain ⟨fuel, rfl⟩ : ∃ k, fuel = k + 1 :=
        ⟨fuel - 1, by rw [List.cons_append, List.length_cons] at hfuel; omega⟩
      rw [List.cons_append, value?_digit hdigit, ← List.cons_append]
      exact hscan
  | .negative _ hliteral hn, hrest, fuel + 1, _ => by
      rw [value?, skipBlanks_cons (by decide)]
      exact scanNumber?_complete hliteral hn hrest
  | .noItems h, _, fuel + 1, _ => by
      rw [value?, skipBlanks_cons (by decide)]
      simp only [skipBlanks_of_blanks h (by decide)]
  | .array h, _, fuel + 1, hfuel => by
      obtain ⟨c, cs, htext, hclosing⟩ := head_items h
      rw [List.length_cons] at hfuel
      rw [value?_bracket htext hclosing, items?_complete h fuel (by omega), Option.map_some]
  | .noMembers h, _, fuel + 1, _ => by
      rw [value?, skipBlanks_cons (by decide)]
      simp only [skipBlanks_of_blanks h (by decide)]
  | .object h, _, fuel + 1, hfuel => by
      obtain ⟨cs, htext⟩ := head_members h
      rw [List.length_cons] at hfuel
      rw [value?_brace htext, members?_complete h fuel (by omega)]
      rfl

theorem items?_complete {text rest : List Char} {items : List Document} :
    Grammar.Items .nearest text items rest → ∀ fuel, 2 * text.length + 1 ≤ fuel →
      items? fuel text = some (items, rest)
  | .last hbefore hvalue hbehind, fuel + 1, hfuel => by
      have hlength := hbefore.length_le
      have hread := value?_complete hvalue (.of_blanks hbehind (ends_cons rfl _)) fuel (by omega)
      rw [items?, value?_blanks hbefore, hread]
      simp only [Option.bind_eq_bind, Option.bind_some, skipBlanks_of_blanks hbehind (by decide)]
      rfl
  | .more hbefore hvalue hbehind h, fuel + 1, hfuel => by
      have hlength := hbefore.length_le
      have hvaluelength := hvalue.length_lt
      have hbehindlength := hbehind.length_le
      have hread := value?_complete hvalue (.of_blanks hbehind (ends_cons rfl _)) fuel (by omega)
      rw [List.length_cons] at hbehindlength
      have hothers := items?_complete h fuel (by omega)
      rw [items?, value?_blanks hbefore, hread]
      simp only [Option.bind_eq_bind, Option.bind_some, skipBlanks_of_blanks hbehind (by decide),
        hothers]
      rfl

theorem member?_complete {text rest : List Char} {m : String × Document} :
    Grammar.Member .nearest text m rest → Ends rest → ∀ fuel, 2 * text.length ≤ fuel →
      members? (fuel + 1) text =
        match skipBlanks rest with
        | ',' :: rest => (members? fuel rest).bind fun others =>
            some (others.1.cons (some m.1.toList) m.2, others.2)
        | '}' :: rest => some (Members.cons (some m.1.toList) m.2 (some []), rest)
        | _ => none
  | .mk hname hcharacters hcolon hbefore hvalue, hrest, fuel, hfuel => by
      have hnamelength := hname.length_le
      have hcharacterslength := hcharacters.length_lt
      have hcolonlength := hcolon.length_le
      have hbeforelength := hbefore.length_le
      rw [List.length_cons] at hnamelength hcolonlength
      obtain ⟨pieces, hscan, hassemble⟩ := scanString?_complete hcharacters
      have hread := value?_complete hvalue hrest fuel (by omega)
      rw [members?, skipBlanks_of_blanks hname (by decide)]
      simp only [hscan, Option.bind_eq_bind, Option.bind_some,
        skipBlanks_of_blanks hcolon (by decide), value?_blanks hbefore, hread, hassemble,
        String.toList_ofList]
      rfl

theorem members?_complete {text rest : List Char} {members : List (String × Document)} :
    Grammar.Members .nearest text members rest → ∀ fuel, 2 * text.length + 1 ≤ fuel →
      members? fuel text = some ((some members : Members), rest)
  | .last hmember hbehind, fuel + 1, hfuel => by
      have hread := member?_complete hmember (.of_blanks hbehind (ends_cons rfl _)) fuel (by omega)
      rw [hread, skipBlanks_of_blanks hbehind (by decide)]
      exact congrArg (fun read => some (read, rest)) (Members.cons_some _ _ [])
  | .more hmember hbehind h, fuel + 1, hfuel => by
      have hlength := hmember.length_lt
      have hbehindlength := hbehind.length_le
      rw [List.length_cons] at hbehindlength
      have hread := member?_complete hmember (.of_blanks hbehind (ends_cons rfl _)) fuel (by omega)
      have hothers := members?_complete h fuel (by omega)
      rw [hread, skipBlanks_of_blanks hbehind (by decide)]
      change (members? fuel _).bind _ = _
      rw [hothers]
      exact congrArg (fun read => some (read, rest)) (Members.cons_some _ _ _)

end

/-- Members with names, the first of them having one. -/
theorem Members.cons_eq_some {name : Option (List Char)} {x : Document} {others : Members}
    {members : List (String × Document)} (h : Members.cons name x others = some members) :
    ∃ cs others', name = some cs ∧ others = some others' ∧
      members = (String.ofList cs, x) :: others' := by
  cases name with
  | none => cases h
  | some cs =>
      cases others with
      | none => cases h
      | some others' => exact ⟨cs, others', rfl, rfl, (Option.some.inj h).symm⟩

section Steps

variable {fuel : Nat}

theorem value_of_value?
    (hitems : ∀ {text items rest}, items? fuel text = some (items, rest) →
      (∀ x ∈ items, x.Definite) → Grammar.Items .nearest text items rest)
    (hmembers : ∀ {text read rest members}, members? fuel text = some (read, rest) →
      read = some members → (∀ m ∈ members, m.2.Definite) →
      Grammar.Members .nearest text members rest)
    {text rest : List Char} {d : Document} (h : value? (fuel + 1) text = some (d, rest))
    (hd : d.Definite) : ∃ value, Blanks text value ∧ Grammar.Value .nearest value d rest := by
  refine ⟨_, blanks_skipBlanks text, ?_⟩
  rw [value?] at h
  generalize skipBlanks text = value at h
  split at h
  · cases h
    exact .null _
  · cases h
    exact .true _
  · cases h
    exact .false _
  · simp only [Option.bind_eq_bind, Option.bind_eq_some_iff] at h
    obtain ⟨⟨pieces, behind⟩, hread, hrest⟩ := h
    dsimp only at hrest
    -- Text with half of a surrogate pair is void.
    split at hrest
    · next hassemble =>
        cases hrest
        exact .string (scanString?_sound hread hassemble)
    · cases hrest
      cases hd
  · next inner =>
      split at h
      · next heq =>
          cases h
          exact .noItems (blanks_of_skipBlanks heq)
      -- Blanks skipped behind the bracket belong to the first item.
      · obtain ⟨⟨items, behind⟩, hread, hrest⟩ := Option.map_eq_some_iff.1 h
        cases hrest
        cases hd with
        | array _ hd => exact .array ((hitems hread hd).padded (blanks_skipBlanks inner))
  · next inner =>
      split at h
      · next heq =>
          cases h
          exact .noMembers (blanks_of_skipBlanks heq)
      · obtain ⟨⟨members, behind⟩, hread, hrest⟩ := Option.map_eq_some_iff.1 h
        cases hrest
        -- So is an object with such text for a name.
        cases members with
        | none => cases hd
        | some members =>
            cases hd with
            | object _ hd => exact .object ((hmembers hread rfl hd).padded (blanks_skipBlanks inner))
  · next unsigned =>
      obtain ⟨literal, n, rfl, hliteral, hn, htext⟩ := scanNumber?_sound h hd
      rw [htext]
      exact .negative rest hliteral hn
  · obtain ⟨literal, n, rfl, hliteral, hn, htext⟩ := scanNumber?_sound h hd
    rw [htext]
    exact .positive rest hliteral hn

theorem items_of_items?
    (hvalue : ∀ {text d rest}, value? fuel text = some (d, rest) → d.Definite →
      ∃ value, Blanks text value ∧ Grammar.Value .nearest value d rest)
    (hitems : ∀ {text items rest}, items? fuel text = some (items, rest) →
      (∀ x ∈ items, x.Definite) → Grammar.Items .nearest text items rest)
    {text rest : List Char} {items : List Document}
    (h : items? (fuel + 1) text = some (items, rest)) (hd : ∀ x ∈ items, x.Definite) :
    Grammar.Items .nearest text items rest := by
  rw [items?] at h
  simp only [Option.bind_eq_bind, Option.bind_eq_some_iff] at h
  obtain ⟨⟨item, behind⟩, hread, h⟩ := h
  dsimp only at h
  split at h
  · next next heq =>
      simp only [Option.bind_eq_some_iff] at h
      obtain ⟨⟨others, behind⟩, hothers, hrest⟩ := h
      cases hrest
      obtain ⟨hfirst, hd⟩ := List.forall_mem_cons.1 hd
      obtain ⟨value, hbefore, hfound⟩ := hvalue hread hfirst
      exact .more hbefore hfound (blanks_of_skipBlanks heq) (hitems hothers hd)
  · next heq =>
      cases h
      obtain ⟨value, hbefore, hfound⟩ := hvalue hread (hd item List.mem_cons_self)
      exact .last hbefore hfound (blanks_of_skipBlanks heq)
  · cases h

theorem members_of_members?
    (hvalue : ∀ {text d rest}, value? fuel text = some (d, rest) → d.Definite →
      ∃ value, Blanks text value ∧ Grammar.Value .nearest value d rest)
    (hmembers : ∀ {text read rest members}, members? fuel text = some (read, rest) →
      read = some members → (∀ m ∈ members, m.2.Definite) →
      Grammar.Members .nearest text members rest)
    {text rest : List Char} {read : Members} {members : List (String × Document)}
    (h : members? (fuel + 1) text = some (read, rest)) (hnamed : read = some members)
    (hd : ∀ m ∈ members, m.2.Definite) : Grammar.Members .nearest text members rest := by
  rw [members?] at h
  split at h
  case h_2 => cases h
  next name hname =>
    simp only [Option.bind_eq_bind, Option.bind_eq_some_iff] at h
    obtain ⟨⟨pieces, colon⟩, hscan, h⟩ := h
    dsimp only at h
    split at h
    case h_2 => cases h
    next before hcolon =>
      simp only [Option.bind_eq_some_iff] at h
      obtain ⟨⟨x, behind⟩, hread, h⟩ := h
      have hmember : ∀ {cs}, assemble? pieces = some cs → x.Definite →
          Grammar.Member .nearest text (String.ofList cs, x) behind := by
        intro cs hassemble hx
        obtain ⟨value, hbefore, hfound⟩ := hvalue hread hx
        exact .mk (blanks_of_skipBlanks hname) (scanString?_sound hscan hassemble)
          (blanks_of_skipBlanks hcolon) hbefore hfound
      dsimp only at h
      split at h
      · next next heq =>
          simp only [Option.bind_eq_some_iff] at h
          obtain ⟨⟨others, behind⟩, hothers, hrest⟩ := h
          cases hrest
          obtain ⟨cs, others', hassemble, hnames, rfl⟩ := Members.cons_eq_some hnamed
          obtain ⟨hfirst, hd⟩ := List.forall_mem_cons.1 hd
          exact .more (hmember hassemble hfirst) (blanks_of_skipBlanks heq)
            (hmembers hothers hnames hd)
      · next heq =>
          cases h
          obtain ⟨cs, others', hassemble, hnone, rfl⟩ := Members.cons_eq_some hnamed
          cases hnone
          exact .last (hmember hassemble (hd _ List.mem_cons_self)) (blanks_of_skipBlanks heq)
      · cases h

end Steps

/-- Nothing is read but what the grammar has, as far as it denotes something. -/
theorem sound (fuel : Nat) :
    (∀ {text d rest}, value? fuel text = some (d, rest) → d.Definite →
      ∃ value, Blanks text value ∧ Grammar.Value .nearest value d rest) ∧
    (∀ {text items rest}, items? fuel text = some (items, rest) → (∀ x ∈ items, x.Definite) →
      Grammar.Items .nearest text items rest) ∧
    (∀ {text read rest members}, members? fuel text = some (read, rest) → read = some members →
      (∀ m ∈ members, m.2.Definite) → Grammar.Members .nearest text members rest) := by
  induction fuel with
  | zero =>
      refine ⟨fun h => ?_, fun h => ?_, fun h => ?_⟩
      · cases h
      · cases h
      · cases h
  | succ fuel ih =>
      obtain ⟨hvalue, hitems, hmembers⟩ := ih
      exact ⟨value_of_value? hitems hmembers, items_of_items? hvalue hitems,
        members_of_members? hvalue hmembers⟩

end Reader

/-- What a text spells is read of it. -/
theorem Document.read?_of_spells {s : String} {d : Document} (h : Spells .nearest s d) :
    Document.read? s = some d := by
  obtain ⟨value, rest, hbefore, hvalue, hbehind⟩ := h
  have hlength := hbefore.length_le
  have hread := Reader.value?_complete hvalue
    (.of_blanks hbehind fun c hc => absurd hc (Option.not_mem_none c))
    (2 * s.toList.length + 2) (by omega)
  have hempty : Reader.skipBlanks rest = [] := Reader.skipBlanks_eq hbehind
  rw [Document.read?, Reader.value?_blanks hbefore, hread]
  simp only [hempty]
  rfl

/-- Only what a text spells is read of it, as far as it denotes something. -/
theorem Document.spells_of_read? {s : String} {d : Document} (h : Document.read? s = some d)
    (hd : d.Definite) : Spells .nearest s d := by
  unfold Document.read? at h
  split at h
  · next d' rest hread =>
      split at h
      · next hempty =>
          cases h
          obtain ⟨value, hbefore, hvalue⟩ := (Reader.sound _).1 hread hd
          exact ⟨value, rest, hbefore, hvalue,
            Reader.blanks_of_skipBlanks (List.isEmpty_iff.1 hempty)⟩
      · cases h
  · cases h

namespace Document

/-- Data is denoted by its own document only. -/
theorem toDocument_of_denote? (room : Nat) :
    ∀ (d : Document) (j : Json), d.denote? room = some j → j.toDocument = d := by
  induction room with
  | zero =>
      intro d j h
      cases d with
      | array items | object members | void => cases h
      | null | bool b | number n | string s =>
          cases h
          rfl
  | succ room ih =>
      intro d j h
      cases d with
      | void => cases h
      | null | bool b | number n | string s =>
          cases h
          rfl
      | array items =>
          obtain ⟨items', hread, rfl⟩ := Option.map_eq_some_iff.1 h
          rw [toDocument, itemDocuments_eq_map, map_of_mapM ih hread]
      | object members =>
          obtain ⟨members', hread, rfl⟩ := Option.map_eq_some_iff.1 h
          have hmember : ∀ (b : String × Document) (a : String × Json),
              (denote? room b.2).map (b.1, ·) = some a → (a.1, a.2.toDocument) = b := by
            intro b a hb
            obtain ⟨j, hj, rfl⟩ := Option.map_eq_some_iff.1 hb
            rw [ih b.2 j hj]
          rw [toDocument, memberDocuments_eq_map,
            @map_of_mapM (String × Json) (String × Document) _ (fun m => (m.1, m.2.toDocument))
              hmember members members' hread]

/-- Items are written one behind the other with commas between them. -/
theorem chars_itemChars (x : Document) (rest : List Document) :
    x.chars ++ itemChars rest = [','].intercalate ((x :: rest).map chars) ++ [']'] := by
  induction rest generalizing x with
  | nil => rw [itemChars, List.map_singleton, List.intercalate_singleton]
  | cons y rest ih =>
      rw [itemChars, ih]
      simp only [List.map_cons, List.intercalate_cons_cons, List.append_assoc, List.cons_append,
        List.nil_append]

theorem chars_memberChars (m : String × Document) (rest : List (String × Document)) :
    quoted m.1 ++ ':' :: (m.2.chars ++ memberChars rest) =
      [','].intercalate ((m :: rest).map fun m => quoted m.1 ++ ':' :: m.2.chars) ++ ['}'] := by
  induction rest generalizing m with
  | nil =>
      rw [memberChars, List.map_singleton, List.intercalate_singleton, List.append_assoc]
      rfl
  | cons m' rest ih =>
      obtain ⟨name, x⟩ := m'
      rw [memberChars, ih (name, x)]
      simp only [List.map_cons, List.intercalate_cons_cons, List.append_assoc, List.cons_append,
        List.nil_append]

end Document

/-- The library at hand is lawful. -/
theorem Library.standard_lawful : Library.standard.Lawful where
  numbers := NumberFormat.nearest_lawful
  write_null := String.toList_ofList
  write_bool b := by cases b <;> exact String.toList_ofList
  write_number n := String.toList_ofList
  write_string s := String.toList_ofList
  write_array items := by
    simp only [standard, Document.text, String.toList_ofList]
    cases items with
    | nil => rfl
    | cons x rest => rw [Document.chars, Document.chars_itemChars]
  write_object members := by
    simp only [standard, Document.text, String.toList_ofList]
    cases members with
    | nil => rfl
    | cons m rest =>
        rw [Document.chars, Document.chars_memberChars m rest]
  read_spelled s j h := by
    have hread := Document.read?_of_spells h
    simp only [standard, read?, hread, Option.bind_some, Document.toJson?, denote?_toDocument]
    split <;> rfl
  spelled_of_read s j h := by
    obtain ⟨d, hread, hjson⟩ := Option.bind_eq_some_iff.1 h
    obtain ⟨j', hdenote, -⟩ := Option.map_eq_some_iff.1 hjson
    obtain rfl := Document.toDocument_of_denote? _ d j' hdenote
    exact ⟨j', Document.spells_of_read? hread j'.toDocument_definite⟩

end Json

end Criteria
