import ScriptEditor.Number.Binary64
import ScriptEditor.Text.Utf16

/-! Values of the JSON data format. Whole numbers are unbounded and kept apart
from floating-point ones; the fields of an object keep their order. A string is a
sequence of UTF-16 units, since it can hold half a character. -/

namespace ScriptEditor.Json

open ScriptEditor.Number (Binary64)

inductive Value where
  | null
  | bool (b : Bool)
  | int (n : Int)
  | float (x : Binary64)
  | text (t : Utf16)
  | list (items : List Value)
  | object (fields : List (Utf16 × Value))
deriving Repr, Inhabited

/-- The fields of an object in their order. -/
abbrev Fields := List (Utf16 × Value)

namespace Fields

/-- The value of a field. -/
def get? (fields : Fields) (key : Utf16) : Option Value :=
  (fields.find? fun f => f.1 == key).map (·.2)

/-- Gives a field a value. A field that is there keeps its place, a new one
comes last. -/
def put : Fields → Utf16 → Value → Fields
  | [], key, value => [(key, value)]
  | f :: rest, key, value =>
    if f.1 == key then (key, value) :: rest else f :: put rest key value

/-- Gives a field a value unless it is there already. -/
def putNew (fields : Fields) (key : Utf16) (value : Value) : Fields :=
  if (fields.get? key).isSome then fields else fields ++ [(key, value)]

/-- The fields without one key. -/
def erase (fields : Fields) (key : Utf16) : Fields :=
  fields.filter fun f => f.1 != key

/-- The fields of a row in which a key may come more than once: each key has the
place of its first and the value of its last appearance. -/
def ofRow (row : List (Utf16 × Value)) : Fields :=
  row.foldl (fun fields f => fields.put f.1 f.2) []

end Fields

mutual

/-- How many lists and objects are inside of each other in a value. -/
def Value.depth : Value → Nat
  | .list items => itemsDepth items + 1
  | .object fields => fieldsDepth fields + 1
  | _ => 0

/-- The depth of the deepest item. -/
def itemsDepth : List Value → Nat
  | [] => 0
  | item :: items => max item.depth (itemsDepth items)

/-- The depth of the deepest field. -/
def fieldsDepth : List (Utf16 × Value) → Nat
  | [] => 0
  | (_, value) :: fields => max value.depth (fieldsDepth fields)

end

/-- Whether a value counts as true: not null, false, a zero, or empty. -/
def Value.isTrue : Value → Bool
  | .null => false
  | .bool b => b
  | .int n => n != 0
  | .float x => !x.isZero
  | .text t => !t.isEmpty
  | .list items => !items.isEmpty
  | .object fields => !fields.isEmpty

end ScriptEditor.Json
