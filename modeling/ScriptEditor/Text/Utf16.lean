import ScriptEditor.Text.Basic

/-!
Text as UTF-16 code units. A sequence of units can hold one half of a character
without the other, which no text can; going back to text replaces such a half.
-/

namespace ScriptEditor

/-- UTF-16 code units, halves of characters among them. -/
abbrev Utf16 := List UInt16

namespace Utf16

def isHighHalf (u : UInt16) : Bool := 0xD800 ≤ u && u ≤ 0xDBFF

def isLowHalf (u : UInt16) : Bool := 0xDC00 ≤ u && u ≤ 0xDFFF

/-- The character that two halves make up. -/
def joinHalves (high low : UInt16) : Char :=
  Char.ofNat (0x10000 + (high.toNat - 0xD800) * 0x400 + (low.toNat - 0xDC00))

/-- The units of a character: itself, or its two halves. -/
def ofChar (c : Char) : Utf16 :=
  let n := c.toNat
  if n < 0x10000 then [UInt16.ofNat n]
  else
    [UInt16.ofNat (0xD800 + (n - 0x10000) / 0x400), UInt16.ofNat (0xDC00 + (n - 0x10000) % 0x400)]

/-- The units of a text. -/
def ofText (t : Text) : Utf16 :=
  t.flatMap ofChar

/-- The text of units. A half without the other half becomes U+FFFD. -/
def toText : Utf16 → Text
  | [] => []
  | [u] => [if isHighHalf u || isLowHalf u then '\ufffd' else Char.ofNat u.toNat]
  | u :: v :: rest =>
    if isHighHalf u then
      if isLowHalf v then joinHalves u v :: toText rest else '\ufffd' :: toText (v :: rest)
    else if isLowHalf u then '\ufffd' :: toText (v :: rest)
    else Char.ofNat u.toNat :: toText (v :: rest)

end Utf16

end ScriptEditor
