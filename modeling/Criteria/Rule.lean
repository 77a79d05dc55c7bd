import Criteria.Evaluator
import Criteria.Wire.Settings

/-!
# Rules against Data

Evaluation from end to end: settings and contexts read from text, and one kind
of failure for all that can go wrong.

## Main definitions

* `Failure`: Why nothing comes of a rule.
* `Failure.message`: A failure in words.
* `Settings.ofText`, `Settings.ofFile`: Settings from text and from the
  contents of a file.
* `evaluate`: The value of a rule with the usual settings.
* `evaluateJson`: The same with a context given as text.
-/

namespace Criteria

/-- The step at which settings could not be had. -/
inductive SettingsFault where
  /-- The text does not spell settings. -/
  | text
  /-- The contents of the file do not spell settings. -/
  | file
  /-- There is no such file. -/
  | missing
deriving DecidableEq

/-- Why nothing comes of a rule. -/
inductive Failure where
  | eval (cause : EvalError)
  | context
  | settings (fault : SettingsFault)
deriving DecidableEq

/-- A failure in words. -/
def Failure.message : Failure → String
  | .eval cause => "Eval error: " ++ cause.message
  | .context => "Context error: Failed to parse context"
  | .settings .text => "Config error: Failed to parse config"
  | .settings .file => "Config error: Failed to parse config file"
  | .settings .missing => "Config error: Failed to open config file"

namespace Settings

/-- The settings that a text spells. -/
def ofText? (s : String) : Option Settings :=
  (Json.Document.read? s).bind (ofDocument? Json.nestingLimit)

/-- The settings that a text spells, or the failure. -/
def ofText (s : String) : Except Failure Settings :=
  match ofText? s with
  | some settings => .ok settings
  | none => .error (.settings .text)

/-- The settings in the contents of a file, where there is one. The contents
    must be text in UTF-8. -/
def ofFile : (contents : Option ByteArray) → Except Failure Settings
  | none => .error (.settings .missing)
  | some bytes =>
    match (String.fromUTF8? bytes).bind ofText? with
    | some settings => .ok settings
    | none => .error (.settings .file)

end Settings

/-- The value of a rule with the usual settings, or why there is none. -/
def evaluate (e : Expr) (c : Context) : Except EvalError Value :=
  Evaluator.eval (m := Id) .standard e c

/-- The value of a rule against variables given as the text of a JSON object,
    which a library reads. The text is read first, whether the rule has
    variables or not. -/
def evaluateJson (L : Json.Library) (e : Expr) (data : String) : Except Failure Value :=
  match Context.ofText? L data with
  | none => .error .context
  | some c => (evaluate e c).mapError .eval

end Criteria
