import Criteria.Settings
import Criteria.Wire.Scalar

/-!
# Wire Forms of Settings

Settings as JSON documents. Each field has a default and may be missing.

## Main definitions

* `Settings.toDocument`: Settings in wire form.
* `Settings.ofDocument?`: The settings that a document spells.
-/

namespace Criteria

open Json (Document)

namespace Settings

/-- Settings in wire form. -/
def toDocument (s : Settings) : Document :=
  .object [("division_by_zero", s.division.toDocument), ("builtins", .bool s.builtins)]

/-- The settings that a document spells. -/
def ofDocument? : (room : Nat) → Document → Option Settings
  | 0, _ => none
  | room + 1, d =>
    match Wire.fields? ["division_by_zero", "builtins"] d with
    | some [division, builtins] => do
      let division ← match division with
        | none => some .zero
        | some d => DivisionPolicy.ofDocument? room d
      let builtins ← match builtins with
        | none => some true
        | some d => d.bool?
      return { division, builtins }
    | _ => none

end Settings

end Criteria
