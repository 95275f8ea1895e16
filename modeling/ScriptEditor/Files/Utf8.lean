import ScriptEditor.Text.Quoted

/-! Text as bytes in UTF-8. Decoding is strict: overlong forms, halves of
characters, code points that do not exist and incomplete sequences are refused,
and the fault names the bytes that cannot be read. -/

namespace ScriptEditor.Utf8

/-- What is wrong with a sequence of bytes. -/
inductive Reason where
  | startByte
  | continuationByte
  | endOfData
deriving Repr, DecidableEq

/-- Where decoding stopped: the first byte of the sequence, its position, and
how many bytes of it were looked at without finding an end. -/
structure Fault where
  first : UInt8
  position : Nat
  length : Nat
  reason : Reason
deriving Repr, DecidableEq

def Reason.message : Reason → Text
  | .startByte => "invalid start byte".toList
  | .continuationByte => "invalid continuation byte".toList
  | .endOfData => "unexpected end of data".toList

/-- The fault in words: one byte is shown, more than one are counted. -/
def Fault.message (f : Fault) : Text :=
  let place :=
    if f.length ≤ 1 then
      " byte 0x".toList ++ Text.hexDigits 2 f.first.toNat ++ " in position ".toList ++
        Text.ofNat f.position
    else
      " bytes in position ".toList ++ Text.ofNat f.position ++ '-' ::
        Text.ofNat (f.position + f.length - 1)
  "'utf-8' codec can't decode".toList ++ place ++ ": ".toList ++ f.reason.message

/-- Bytes that continue a character. -/
def isContinuation (b : UInt8) : Bool :=
  0x80 ≤ b && b < 0xC0

/-- Bytes that may come second behind a first one: all continuations but those
of overlong forms, of halves, and of code points beyond the last. -/
def isSecond (first b : UInt8) : Bool :=
  isContinuation b && (first != 0xE0 || 0xA0 ≤ b) && (first != 0xED || b < 0xA0) &&
    (first != 0xF0 || 0x90 ≤ b) && (first != 0xF4 || b < 0x90)

/-- The bits that a continuation adds to a code point. -/
def addBits (n : Nat) (b : UInt8) : Nat :=
  n * 64 + (b.toNat - 0x80)

/-- The text that bytes encode. The number is the position of the first byte. -/
def decodeFrom (position : Nat) : List UInt8 → Except Fault Text
  | [] => .ok []
  | a :: rest =>
    let fault length reason : Except Fault Text := .error ⟨a, position, length, reason⟩
    if a < 0x80 then
      (decodeFrom (position + 1) rest).map (Char.ofNat a.toNat :: ·)
    else if a < 0xC2 || 0xF4 < a then fault 1 .startByte
    else
      match rest with
      | [] => fault 1 .endOfData
      | b :: rest =>
        if !isSecond a b then fault 1 .continuationByte
        else if a < 0xE0 then
          (decodeFrom (position + 2) rest).map
            (Char.ofNat (addBits (a.toNat - 0xC0) b) :: ·)
        else
          match rest with
          | [] => fault 2 .endOfData
          | c :: rest =>
            if !isContinuation c then fault 2 .continuationByte
            else if a < 0xF0 then
              (decodeFrom (position + 3) rest).map
                (Char.ofNat (addBits (addBits (a.toNat - 0xE0) b) c) :: ·)
            else
              match rest with
              | [] => fault 3 .endOfData
              | d :: rest =>
                if !isContinuation d then fault 3 .continuationByte
                else
                  (decodeFrom (position + 4) rest).map
                    (Char.ofNat (addBits (addBits (addBits (a.toNat - 0xF0) b) c) d) :: ·)

/-- The text that bytes encode. -/
def decode (bytes : List UInt8) : Except Fault Text :=
  decodeFrom 0 bytes

/-- A continuation with the lowest six bits of a number. -/
def continuation (n : Nat) : UInt8 :=
  UInt8.ofNat (0x80 + n % 64)

/-- The bytes of a character. -/
def encodeChar (c : Char) : List UInt8 :=
  let n := c.toNat
  if n < 0x80 then [UInt8.ofNat n]
  else if n < 0x800 then [UInt8.ofNat (0xC0 + n / 64), continuation n]
  else if n < 0x10000 then
    [UInt8.ofNat (0xE0 + n / 4096), continuation (n / 64), continuation n]
  else
    [UInt8.ofNat (0xF0 + n / 262144), continuation (n / 4096), continuation (n / 64),
      continuation n]

/-- The bytes of a text. -/
def encode (t : Text) : List UInt8 :=
  t.flatMap encodeChar

end ScriptEditor.Utf8
