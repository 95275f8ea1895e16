import ScriptEditor.Files.Path
import ScriptEditor.Files.Utf8
import ScriptEditor.Text.Quoted

/-! The files that a program can see, below the directory it works in and below
the root of all files. -/

namespace ScriptEditor.Files

/-- What is at a place. -/
inductive Entry where
  | file (bytes : List UInt8)
  | directory
deriving Repr, DecidableEq

/-- Why the file system does not open a file. -/
inductive Cause where
  | missing
  | notDirectory
  | isDirectory
  | nameTooLong
deriving Repr, DecidableEq

/-- A failure to open a file: the file system does not open what is at a path, or
the path holds a character that no path can hold and is not even looked at. -/
inductive OpenFault where
  | refused (cause : Cause) (path : Path)
  | nullCharacter
deriving Repr, DecidableEq

def Cause.message : Cause → Text
  | .missing => "[Errno 2] No such file or directory".toList
  | .notDirectory => "[Errno 20] Not a directory".toList
  | .isDirectory => "[Errno 21] Is a directory".toList
  | .nameTooLong => "[Errno 36] File name too long".toList

/-- The failure in words, with the path in quotes. -/
def OpenFault.message : OpenFault → Text
  | .refused cause path => cause.message ++ ": ".toList ++ Text.quoted path.toText
  | .nullCharacter => "embedded null byte".toList

/-- A place: the names on the way to it from the working directory, or a slash and
the names on the way from the root. Above the working directory there are only
pairs of dots. -/
abbrev Place := List Text

/-- The name that leads to the directory above. -/
def parentName : Text := ['.', '.']

/-- How many bytes a name can have. -/
def longestName : Nat := 255

/-- How many bytes a path can have. -/
def longestPath : Nat := 4095

/-- The place of the root. -/
def rootPlace : Place := [['/']]

/-- The place where a path starts. -/
def Path.base (p : Path) : Place :=
  if p.root.isEmpty then [] else rootPlace

/-- The entries at their places. A directory is there also if something is below
it. -/
structure Store where
  entries : List (Place × Entry)
deriving Repr

namespace Store

def empty : Store := ⟨[]⟩

/-- What is at a place. -/
def entryAt? (s : Store) (place : Place) : Option Entry :=
  match s.entries.find? fun e => e.1 == place with
  | some e => some e.2
  | none =>
    if place.all (· == parentName) || place == rootPlace ||
        s.entries.any (fun e => place.isPrefixOf e.1) then
      some .directory
    else none

/-- The directory above a place. The root is above itself. -/
def above (place : Place) : Place :=
  if place == rootPlace then place
  else if place.all (· == parentName) then place ++ [parentName]
  else place.dropLast

/-- The place that names lead to, starting from a directory. Each name but the
last has to be a directory, and two dots lead back. -/
def walk (s : Store) : Place → List Text → Except Cause Place
  | here, [] => .ok here
  | here, name :: rest =>
    match s.entryAt? here with
    | none => .error .missing
    | some (.file _) => .error .notDirectory
    | some .directory =>
      if name == parentName then walk s (above here) rest
      else if longestName < (Utf8.encode name).length then .error .nameTooLong
      else walk s (here ++ [name]) rest

/-- The place of a path. -/
def placeOf (s : Store) (p : Path) : Except OpenFault Place :=
  if p.parts.any (·.contains '\x00') then .error .nullCharacter
  else if longestPath < (Utf8.encode p.toText).length then .error (.refused .nameTooLong p)
  else (s.walk p.base p.parts).mapError (.refused · p)

/-- Whether there is a file or directory at a path. A path on which nothing can be
is an empty one, but names that are too long cannot be looked up. -/
def has (s : Store) (p : Path) : Except OpenFault Bool :=
  match s.placeOf p with
  | .ok place => .ok (s.entryAt? place).isSome
  | .error (.refused .nameTooLong path) => .error (.refused .nameTooLong path)
  | .error _ => .ok false

/-- The bytes of the file at a path. -/
def read (s : Store) (p : Path) : Except OpenFault (List UInt8) := do
  let place ← s.placeOf p
  match s.entryAt? place with
  | some (.file bytes) => return bytes
  | some .directory => throw (.refused .isDirectory p)
  | none => throw (.refused .missing p)

/-- Puts an entry at a place. -/
def put (s : Store) (place : Place) (e : Entry) : Store :=
  ⟨s.entries.filter (fun x => x.1 != place) ++ [(place, e)]⟩

/-- Writes the file at a path, in place of one that is there. -/
def write (s : Store) (p : Path) (bytes : List UInt8) : Except OpenFault Store := do
  let place ← s.placeOf p
  match s.entryAt? place with
  | some .directory => throw (.refused .isDirectory p)
  | _ => return s.put place (.file bytes)

/-- Puts an entry at a path, together with the directories on the way to it. -/
def putAt (s : Store) (p : Path) (e : Entry) : Store :=
  s.put (p.base ++ p.parts) e

/-- Takes away what is at a path. -/
def remove (s : Store) (p : Path) : Store :=
  ⟨s.entries.filter fun e => e.1 != p.base ++ p.parts⟩

/-- The text of the file at a path, if there is one. -/
def textAt? (s : Store) (p : Path) : Option Text :=
  match s.read p with
  | .ok bytes => (Utf8.decode bytes).toOption
  | .error _ => none

end Store

end ScriptEditor.Files
