import ScriptEditor.Json.Value
import ScriptEditor.Number.WholeText

/-! Values as whole numbers. -/

namespace ScriptEditor.Preferences

open ScriptEditor.Json (Value)
open ScriptEditor.Number (WholeFault readWhole)

/-- Why a value is no whole number. -/
inductive ConversionFault where
  | text (fault : WholeFault)
  | notANumber
  | infinite
  | noNumber (kind : Text)
deriving Repr, DecidableEq

def ConversionFault.message : ConversionFault → Text
  | .text fault => fault.message
  | .notANumber => "cannot convert float NaN to integer".toList
  | .infinite => "cannot convert float infinity to integer".toList
  | .noNumber kind =>
    "int() argument must be a string, a bytes-like object or a real number, not '".toList ++
      kind ++ [Text.singleQuote]

/-- A value as a whole number. A truth value counts as one or zero, the fraction
of a number is dropped, and a text is read. -/
def wholeOf : Value → Except ConversionFault Int
  | .bool b => .ok (if b then 1 else 0)
  | .int n => .ok n
  | .float .nan => .error .notANumber
  | .float (.infinite _) => .error .infinite
  | .float x => .ok (x.truncated?.getD 0)
  | .text t => (readWhole t.toText).mapError .text
  | .null => .error (.noNumber "NoneType".toList)
  | .list _ => .error (.noNumber "list".toList)
  | .object _ => .error (.noNumber "dict".toList)

/-- Whether a value can stand for a whole number: it is neither a truth value nor
a number with a fraction. -/
def mayBeWhole : Value → Bool
  | .bool _ => false
  | .float x => x.isWhole
  | _ => true

/-- The positive whole number that a value stands for, or the default. -/
def positiveOr (default : Int) (v : Value) : Int :=
  if mayBeWhole v then
    match wholeOf v with
    | .ok n => if 0 < n then n else default
    | .error _ => default
  else default

end ScriptEditor.Preferences
