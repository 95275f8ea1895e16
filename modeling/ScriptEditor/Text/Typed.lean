import ScriptEditor.Text.Quoted

/-!
Characters that a keyboard can enter. Controls do nothing when they are typed, and
neither does a code point that stands for no character.
-/

namespace ScriptEditor.Text

/-- Format characters, which are invisible and have an effect all the same. -/
def formatRanges : List (Nat × Nat) := [
  (0xAD, 0xAD), (0x600, 0x605), (0x61C, 0x61C), (0x6DD, 0x6DD), (0x70F, 0x70F), (0x8E2, 0x8E2),
  (0x180E, 0x180E), (0x200B, 0x200F), (0x202A, 0x202E), (0x2060, 0x2064), (0x2066, 0x206F),
  (0xFEFF, 0xFEFF), (0xFFF9, 0xFFFB)]

/-- Code points that had no character yet when the keyboard learned them. -/
def lateRanges : List (Nat × Nat) := [
  (0x61D, 0x61D), (0x870, 0x88E), (0x890, 0x891), (0x898, 0x89F), (0x8B5, 0x8B5), (0x8C8, 0x8D2),
  (0xC3C, 0xC3C), (0xC5D, 0xC5D), (0xCDD, 0xCDD), (0x170D, 0x170D), (0x1715, 0x1715),
  (0x171F, 0x171F), (0x180F, 0x180F), (0x1AC1, 0x1ACE), (0x1B4C, 0x1B4C), (0x1B7D, 0x1B7E),
  (0x1DFA, 0x1DFA), (0x20C0, 0x20C0), (0x2C2F, 0x2C2F), (0x2C5F, 0x2C5F), (0x2E53, 0x2E5D),
  (0x9FFD, 0x9FFF), (0xA7C0, 0xA7C1), (0xA7D0, 0xA7D1), (0xA7D3, 0xA7D3), (0xA7D5, 0xA7D9),
  (0xA7F2, 0xA7F4), (0xFBC2, 0xFBC2), (0xFD40, 0xFD4F), (0xFDCF, 0xFDCF), (0xFDFE, 0xFDFF)]

/-- The controls of ASCII and of the block behind it. -/
def isControl (c : Char) : Bool :=
  let n := c.toNat
  n < 0x20 || (0x7F ≤ n && n < 0xA0)

/-- Code points that are left to private agreements. -/
def isPrivate (c : Char) : Bool :=
  let n := c.toNat
  0xE000 ≤ n && n ≤ 0xF8FF

/-- Whether a character can be entered by a key. Beyond U+FFFF every one can. -/
def isTypable (c : Char) : Bool :=
  0x10000 ≤ c.toNat ||
    (!isControl c && !inRanges lateRanges c.toNat &&
      (isPrintable c || isBlank c || isPrivate c || inRanges formatRanges c.toNat))

end ScriptEditor.Text
