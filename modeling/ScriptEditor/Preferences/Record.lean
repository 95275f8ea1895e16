import ScriptEditor.Files.Store
import ScriptEditor.Json.Reader
import ScriptEditor.Json.Writer
import ScriptEditor.Preferences.Whole
import ScriptEditor.Text.Lines

/-! Preferences and the file they are kept in. What cannot be used is replaced by a
default, and a warning says so. Reading fails only for a path that cannot be looked
up and for values that are nested too deep, and such values are not written either. -/

namespace ScriptEditor.Preferences

open ScriptEditor.Json (Value Fields)
open ScriptEditor.Files (Path Store OpenFault)

def themeKey : Utf16 := .ofText "theme".toList

def calltipsKey : Utf16 := .ofText "show_calltips".toList

def fontSizeKey : Utf16 := .ofText "font_size".toList

def wrapKey : Utf16 := .ofText "word_wrap".toList

def tabWidthKey : Utf16 := .ofText "tab_width".toList

def timeoutKey : Utf16 := .ofText "calltip_timeout_ms".toList

def defaultTabWidth : Int := 4

def defaultFontSize : Int := 13

def defaultTimeout : Int := 2500

/-- The preferences of someone who has chosen none. -/
def defaults : Fields := [
  (themeKey, .text (.ofText "dark".toList)),
  (calltipsKey, .bool true),
  (fontSizeKey, .int defaultFontSize),
  (wrapKey, .bool true),
  (tabWidthKey, .int defaultTabWidth),
  (timeoutKey, .int defaultTimeout)]

/-- The preferences that are positive whole numbers, with their defaults. -/
def wholeKeys : List (Utf16 × Int) := [
  (tabWidthKey, defaultTabWidth),
  (fontSizeKey, defaultFontSize),
  (timeoutKey, defaultTimeout)]

/-- What reading has to say about a file. -/
inductive Warning where
  | unreadable
  | notObject
  | replaced (key : Utf16) (number : Int)
deriving Repr, DecidableEq

/-- Why preferences could not be had. -/
inductive LoadFault where
  | lookUp (fault : OpenFault)
  | nesting (nest : Json.Nest)
deriving Repr, DecidableEq

def LoadFault.message : LoadFault → Text
  | .lookUp fault => fault.message
  | .nesting nest => (Json.ReadFault.tooDeep nest).message

/-- Why preferences could not be written. -/
inductive SaveFault where
  | opening (fault : OpenFault)
  | nesting
deriving Repr, DecidableEq

def SaveFault.message : SaveFault → Text
  | .opening fault => fault.message
  | .nesting => "maximum recursion depth exceeded while calling a Python object".toList

/-- The object that the bytes of a file denote. -/
def objectOf (bytes : List UInt8) : Except LoadFault (Fields × List Warning) :=
  match Utf8.decode bytes with
  | .error _ => .ok ([], [.unreadable])
  | .ok t =>
    match Json.read (Text.unifyLineEnds t) with
    | .error .malformed => .ok ([], [.unreadable])
    | .error (.tooDeep nest) => .error (.nesting nest)
    | .ok (.object fields) => .ok (fields, [])
    | .ok _ => .ok ([], [.notObject])

/-- The object in a file. A file that is not there is an empty object without a
warning. -/
def readObject (s : Store) (p : Path) : Except LoadFault (Fields × List Warning) :=
  match s.has p with
  | .error fault => .error (.lookUp fault)
  | .ok false => .ok ([], [])
  | .ok true =>
    match s.read p with
    | .error _ => .ok ([], [.unreadable])
    | .ok bytes => objectOf bytes

/-- The fields with the defaults that are missing behind them. -/
def fill (fields : Fields) : Fields :=
  defaults.foldl (fun fs d => fs.putNew d.1 d.2) fields

/-- Whether a value is this whole number. -/
def isWholeNumber (v : Value) (number : Int) : Bool :=
  match v with
  | .int n => n == number
  | _ => false

/-- Makes one preference a positive whole number, with a warning if it was not
that number already. -/
def repairOne (state : Fields × List Warning) (entry : Utf16 × Int) : Fields × List Warning :=
  let (fields, warnings) := state
  let (key, default) := entry
  let value := (fields.get? key).getD .null
  let number := positiveOr default value
  let more := if isWholeNumber value number then [] else [.replaced key number]
  (fields.put key (.int number), warnings ++ more)

/-- Makes the preferences that are whole numbers positive. -/
def repair (fields : Fields) : Fields × List Warning :=
  wholeKeys.foldl repairOne (fields, [])

/-- The preferences in a file, complete and usable. -/
def load (s : Store) (p : Path) : Except LoadFault (Fields × List Warning) :=
  (readObject s p).map fun (fields, warnings) =>
    let (fields, more) := repair (fill fields)
    (fields, warnings ++ more)

/-- Writes preferences to a file. Writing goes down to the same limit of nesting as
reading. -/
def save (s : Store) (p : Path) (fields : Fields) : Except SaveFault Store :=
  match s.write p (Utf8.encode (Json.render (.object fields))) with
  | .error fault => .error (.opening fault)
  | .ok store =>
    if (Value.object fields).depth ≤ Json.nestingLimit then .ok store else .error .nesting

/-- A tab width from any value. -/
def tabWidthOf (v : Value) : Int :=
  positiveOr defaultTabWidth v

end ScriptEditor.Preferences
