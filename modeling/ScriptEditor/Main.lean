import ScriptEditor.Window.Launch

/-! The command line: the program is started with the name of a script and shows
the window that opens, with numbered lines and the status line below them. -/

namespace ScriptEditor.CommandLine

/-- The bytes of a file, if it can be read. -/
def readBytes? (name : String) : IO (Option (List UInt8)) := do
  try
    let bytes ← IO.FS.readBinFile name
    return some bytes.toList
  catch _ => return none

/-- The files with these names, as far as they are there. -/
def gather (names : List String) : IO Files.Store :=
  names.foldlM
    (fun store name => do
      match ← readBytes? name with
      | some bytes => return store.putAt (Files.Path.ofText name.toList) (.file bytes)
      | none => return store)
    Files.Store.empty

/-- The lines of a window with their numbers. -/
def numberedLines (w : Window) : List String :=
  (w.editor.lineNumbers.zip w.editor.page.lines).map fun (number, line) =>
    String.ofList (number ++ ' ' :: line)

end ScriptEditor.CommandLine

open ScriptEditor ScriptEditor.CommandLine

/-- Shows a window, and tells on the error output what could not be opened. -/
def present (done : Window.Outcome) : IO Unit := do
  IO.println (String.ofList done.window.title)
  for question in done.asked do
    match question with
    | .critical title text => IO.eprintln (String.ofList (title ++ ": ".toList ++ text))
    | _ => pure ()
  for line in numberedLines done.window do
    IO.println line
  IO.println (String.ofList done.window.status)

/-- Starts the program. -/
def main (args : List String) : IO UInt32 := do
  let home := (← IO.getEnv "HOME").getD "."
  let preferences := home ++ "/" ++ String.ofList Window.preferencesName
  let store ← gather (preferences :: args.take 1)
  match Window.launch store (Files.Path.ofText preferences.toList) (args.map String.toList) with
  | .ok done =>
    present done
    return 0
  | .error fault =>
    IO.eprintln (String.ofList fault.message)
    return 1
