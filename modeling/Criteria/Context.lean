import Criteria.Error
import Criteria.Json.Library

/-!
# Contexts

The variables of a rule.

A context binds names to JSON data. A variable may also be a path into the
data: names and positions joined by dots, the first of them bound in the
context. A binding of the whole name goes before any path.

## Main definitions

* `Context`: Names bound to JSON data in canonical form.
* `set`, `ofList`, `ofData?`, `ofText?`: Contexts are made of bindings, or read
  from data or text.
* `Path.segments`: A name split at its dots.
* `Json.child?`, `Json.descend?`: Steps into data.
* `get?`, `lookup`: What a variable stands for.
-/

namespace Criteria

namespace Path

/-- Text split at every dot. There is always at least one segment, and
    neighbouring dots have an empty one between them. -/
def split : List Char → List (List Char)
  | [] => [[]]
  | '.' :: cs => [] :: split cs
  | c :: cs =>
    match split cs with
    | [] => [[c]]
    | segment :: rest => (c :: segment) :: rest

/-- The segments of a name. -/
def segments (name : String) : List String :=
  (split name.toList).map String.ofList

end Path

namespace Json

/-- One step into data: to the member of an object with that very name, or to
    the item of an array at that position. -/
def child? (segment : String) : Json → Option Json
  | .object members => members.lookup segment
  | .array items => (Text.readIndex? segment.toList).bind fun i => items[i]?
  | _ => none

/-- Steps into data, one after the other. -/
def descend? : List String → Json → Option Json
  | [], j => some j
  | segment :: rest, j => (j.child? segment).bind (descend? rest)

end Json

/-- Names bound to JSON data. The data is kept in canonical form. -/
structure Context where
  bindings : Bindings Json
  canonical : ∀ e ∈ bindings.entries, e.2.Canonical

namespace Context

/-- The context without variables. -/
def empty : Context :=
  ⟨Bindings.empty, fun _ h => absurd h List.not_mem_nil⟩

instance : Inhabited Context := ⟨empty⟩

/-- A context with one name bound, whatever it was bound to before. -/
def set (c : Context) (name : String) (j : Json) : Context where
  bindings := c.bindings.insert name j.canonical
  canonical e h := (Bindings.mem_insert h).elim (fun h => h ▸ j.canonical_isCanonical)
    (c.canonical e)

/-- The context of a list of bindings made one after the other. -/
def ofList (l : List (String × Json)) : Context :=
  l.foldl (fun c e => c.set e.1 e.2) empty

/-- How many names are bound. -/
def size (c : Context) : Nat :=
  c.bindings.size

/-- Whether nothing is bound. -/
def isEmpty (c : Context) : Bool :=
  c.size == 0

/-- A context as JSON data: an object with the variables as members. -/
def toJson (c : Context) : Json :=
  .object c.bindings.entries

/-- The context that data makes up: an object, its members being the
    variables. -/
def ofData? : Json → Option Context
  | .object members => some (ofList members)
  | _ => none

/-- The context that a text spells, by a library for JSON text. -/
def ofText? (L : Json.Library) (s : String) : Option Context :=
  (L.readData? s).bind ofData?

/-- What a variable stands for: the binding of its whole name, or else the data
    that its first segment is bound to, followed along the others. -/
def get? (c : Context) (name : String) : Option Json :=
  match c.bindings.get? name with
  | some j => some j
  | none =>
    match Path.segments name with
    | [] => none
    | root :: steps => (c.bindings.get? root).bind (Json.descend? steps)

/-- What a variable stands for, or the error that there is no such thing. -/
def lookup (c : Context) (name : String) : Except EvalError Json :=
  match c.get? name with
  | some j => .ok j
  | none => .error (.variableNotFound name)

/-- Equality of contexts: the same names, bound to equal data. -/
def equals (a b : Context) : Bool :=
  a.toJson.equals b.toJson

end Context

end Criteria
