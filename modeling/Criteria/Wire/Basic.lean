import Criteria.Json.Document

/-!
# Wire Forms

How typed data is laid out in JSON documents.

A choice between alternatives is an object with one member, named after the
alternative; an alternative without contents may also be its bare name. A
record is an object of its fields in any order, or an array of them in their
declared order, and fields nobody declared are skipped.

A form is read with a number of brackets that may still be opened. Skipped
parts do not count: nothing is asked of them but that they are JSON.

## Main definitions

* `tagged`: The document of an alternative with contents.
* `alternative?`: The name and the contents of an alternative.
* `bareName?`: The name of an alternative without contents.
* `fields?`: The fields of a record.
-/

namespace Criteria

namespace Wire

open Json (Document)

/-- An alternative with contents: an object with the one member. -/
def tagged (name : String) (contents : Document) : Document :=
  .object [(name, contents)]

/-- The name and the contents of an alternative. -/
def alternative? : Document → Option (String × Document)
  | .object [member] => some member
  | _ => none

/-- The name of an alternative without contents: the name alone, or an object
    that gives it null as contents. -/
def bareName? : (room : Nat) → Document → Option String
  | _, .string name => some name
  | _ + 1, .object [(name, .null)] => some name
  | _, _ => none

/-- The contents of a field among the members of an object: none if it is
    missing. There is no answer if it is given twice. -/
def field? (members : List (String × Document)) (name : String) : Option (Option Document) :=
  match members.filter fun m => m.1 == name with
  | [] => some none
  | [member] => some (some member.2)
  | _ => none

/-- The fields of a record in declared order, a missing one being `none`. An
    array may end early but must not go on after the last field. -/
def fields? (names : List String) : Document → Option (List (Option Document))
  | .object members => names.mapM (field? members)
  | .array items =>
    if items.length ≤ names.length then
      some (items.map some ++ List.replicate (names.length - items.length) none)
    else none
  | _ => none

end Wire

end Criteria
