import ScriptEditor.Text.Basic

/-! Names of files. A path is kept as its parts, so that two spellings that
differ in empty parts and single dots are the same path. -/

namespace ScriptEditor.Files

/-- A path: the slashes it begins with, and the names on the way. -/
structure Path where
  root : Text
  parts : List Text
deriving Repr, DecidableEq

namespace Path

/-- The pieces of a text between slashes. -/
def splitSlashes : Text → List Text
  | [] => [[]]
  | c :: t =>
    if c == '/' then [] :: splitSlashes t
    else
      match splitSlashes t with
      | [] => [[c]]
      | piece :: rest => (c :: piece) :: rest

/-- The path that a text names. Exactly two slashes at the beginning are kept,
any other number of them counts as one. -/
def ofText (t : Text) : Path :=
  let slashes := (t.takeWhile (· == '/')).length
  let root := if slashes = 0 then [] else if slashes = 2 then ['/', '/'] else ['/']
  ⟨root, (splitSlashes t).filter fun p => !p.isEmpty && p != ['.']⟩

/-- The names with a slash between each two. -/
def joinSlashes : List Text → Text
  | [] => []
  | [p] => p
  | p :: rest => p ++ '/' :: joinSlashes rest

/-- The path as text; the empty path is a dot. -/
def toText (p : Path) : Text :=
  if p.root.isEmpty && p.parts.isEmpty then ['.'] else p.root ++ joinSlashes p.parts

/-- The last name of a path. -/
def name (p : Path) : Text :=
  p.parts.getLastD []

end Path

end ScriptEditor.Files
