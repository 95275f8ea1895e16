import ScriptEditor.Json.Value
import ScriptEditor.Number.Shortest
import ScriptEditor.Text.Quoted

/-! Writing of the JSON data format in ASCII, one item or field a line and two
more spaces for each level. -/

namespace ScriptEditor.Json

open ScriptEditor.Number (Binary64)
open ScriptEditor.Text (backslash doubleQuote hexDigits)

/-- A UTF-16 unit as a numeric escape. -/
def unitEscape (u : UInt16) : Text :=
  backslash :: 'u' :: hexDigits 4 u.toNat

/-- The letter of the escape for a unit that has a short one. -/
def shortEscape? (u : UInt16) : Option Char :=
  if u == 0x22 then some doubleQuote
  else if u == 0x5C then some backslash
  else if u == 0x0A then some 'n'
  else if u == 0x0D then some 'r'
  else if u == 0x09 then some 't'
  else if u == 0x08 then some 'b'
  else if u == 0x0C then some 'f'
  else none

/-- A unit within a string. What is not printable ASCII is escaped. -/
def writeUnit (u : UInt16) : Text :=
  match shortEscape? u with
  | some c => [backslash, c]
  | none => if 32 ≤ u && u < 127 then [Char.ofNat u.toNat] else unitEscape u

def writeString (t : Utf16) : Text :=
  doubleQuote :: t.flatMap writeUnit ++ [doubleQuote]

def writeFloat : Binary64 → Text
  | .nan => "NaN".toList
  | .infinite negative => if negative then "-Infinity".toList else "Infinity".toList
  | x => x.toText

/-- A new line at a level of nesting. -/
def newLine (level : Nat) : Text :=
  '\n' :: List.replicate (2 * level) ' '

mutual

/-- A value whose parts are one level deeper than `level`. -/
def write (level : Nat) : Value → Text
  | .null => "null".toList
  | .bool b => if b then "true".toList else "false".toList
  | .int n => Text.ofInt n
  | .float x => writeFloat x
  | .text t => writeString t
  | .list [] => "[]".toList
  | .list (item :: items) =>
    '[' :: newLine (level + 1) ++ write (level + 1) item ++ writeItems (level + 1) items ++
      newLine level ++ [']']
  | .object [] => ['\x7b', '\x7d']
  | .object (field :: fields) =>
    '\x7b' :: newLine (level + 1) ++ writeField (level + 1) field ++
      writeFields (level + 1) fields ++ newLine level ++ ['\x7d']

/-- The items of a list behind its first one. -/
def writeItems (level : Nat) : List Value → Text
  | [] => []
  | item :: items => ',' :: newLine level ++ write level item ++ writeItems level items

def writeField (level : Nat) : Utf16 × Value → Text
  | (key, value) => writeString key ++ ':' :: ' ' :: write level value

/-- The fields of an object behind its first one. -/
def writeFields (level : Nat) : List (Utf16 × Value) → Text
  | [] => []
  | field :: fields =>
    ',' :: newLine level ++ writeField level field ++ writeFields level fields

end

/-- A value as a whole text. -/
def render (value : Value) : Text :=
  write 0 value

end ScriptEditor.Json
