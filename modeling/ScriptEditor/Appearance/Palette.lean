import ScriptEditor.Json.Value
import ScriptEditor.Text.Quoted

/-! Colours of the two themes, and the style sheets that are made of them. -/

namespace ScriptEditor.Appearance

/-- A colour by its red, green and blue parts, eight bits each. -/
structure Colour where
  rgb : Nat
deriving Repr, DecidableEq

/-- A number sign and six digits in base 16. -/
def Colour.toText (c : Colour) : Text :=
  '#' :: Text.hexDigits 6 c.rgb

inductive Theme where
  | dark
  | light
deriving Repr, DecidableEq

/-- The name under which a theme is kept. -/
def Theme.label : Theme → Text
  | .dark => "dark".toList
  | .light => "light".toList

/-- The theme that a kept value names. Whatever is not the name of the light
theme stands for the dark one. -/
def Theme.ofValue : Json.Value → Theme
  | .text t => if t == Utf16.ofText Theme.light.label then .light else .dark
  | _ => .dark

/-- The colours of the parts of a script. -/
structure Palette where
  background : Colour
  foreground : Colour
  keyword : Colour
  type : Colour
  builtin : Colour
  constant : Colour
  comment : Colour
  string : Colour
  number : Colour
  function : Colour
deriving Repr, DecidableEq

def darkPalette : Palette where
  background := ⟨0x1e2127⟩
  foreground := ⟨0xc8ccd4⟩
  keyword := ⟨0xc678dd⟩
  type := ⟨0x56b6c2⟩
  builtin := ⟨0x61afef⟩
  constant := ⟨0xd19a66⟩
  comment := ⟨0x7f848e⟩
  string := ⟨0x98c379⟩
  number := ⟨0xd19a66⟩
  function := ⟨0xe5c07b⟩

def lightPalette : Palette where
  background := ⟨0xfdfdfd⟩
  foreground := ⟨0x2f3337⟩
  keyword := ⟨0x8b1fa9⟩
  type := ⟨0x0e7c86⟩
  builtin := ⟨0x1f5fbf⟩
  constant := ⟨0xa05a00⟩
  comment := ⟨0x6a737d⟩
  string := ⟨0x3a7d34⟩
  number := ⟨0xa05a00⟩
  function := ⟨0x6f42c1⟩

def Theme.palette : Theme → Palette
  | .dark => darkPalette
  | .light => lightPalette

/-- A rule of a style sheet: what it is for, and the settings it makes. -/
def styleRule (selector : String) (settings : List (String × Colour)) : Text :=
  let body := settings.flatMap fun s =>
    s.1.toList ++ ": ".toList ++ s.2.toText ++ "; ".toList
  selector.toList ++ " \x7b ".toList ++ body ++ ['\x7d']

/-- The style sheet of the text area. -/
def Palette.editorStyle (p : Palette) : Text :=
  styleRule "QPlainTextEdit" [("background-color", p.background), ("color", p.foreground)]

/-- The style sheet of the window around the text area: one rule a line. -/
def Palette.windowStyle (p : Palette) : Text :=
  let ground := ("background-color", p.background)
  let plain := [ground, ("color", p.foreground)]
  let marked := [("background", p.keyword)]
  let rules := [
    styleRule "QMainWindow" [ground],
    styleRule "QMenuBar" plain,
    styleRule "QMenuBar::item:selected" marked,
    styleRule "QMenu" plain,
    styleRule "QMenu::item:selected" marked,
    styleRule "QStatusBar" plain]
  '\n' :: rules.flatMap fun r => r ++ ['\n']

end ScriptEditor.Appearance
