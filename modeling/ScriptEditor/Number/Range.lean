import ScriptEditor.Text.Basic

/-! Ranges of the numbers that a machine counts with. -/

namespace ScriptEditor.Number

/-- Whether a number fits into 32 bits with a sign. -/
def fitsWord (n : Int) : Bool :=
  -2147483648 ≤ n && n ≤ 2147483647

/-- What is said about a number that does not. -/
def wordMessage : Text :=
  "argument 1 overflowed: value must be in the range -2147483648 to 2147483647".toList

/-- The greatest length that can be counted. -/
def greatestLength : Int := 9223372036854775807

/-- What is said about a greater one. -/
def lengthMessage : Text :=
  "cannot fit 'int' into an index-sized integer".toList

/-- The greatest length that there is room for. -/
def greatestRoom : Int := 17179869184

/-- The most digits a number may be written with. -/
def digitLimit : Nat := 4300

/-- Whether a number can be written. -/
def isWritable (n : Int) : Bool :=
  n.natAbs < Nat.pow 10 digitLimit

/-- What is said about a number that cannot. -/
def digitsMessage : Text :=
  "Exceeds the limit (".toList ++ Text.ofNat digitLimit ++
    " digits) for integer string conversion; ".toList ++
    "use sys.set_int_max_str_digits() to increase the limit".toList

/-- Whether a whole number is rounded to a finite number of 64 bits. -/
def fitsBinary64 (n : Int) : Bool :=
  n.natAbs < Nat.pow 2 1024 - Nat.pow 2 970

end ScriptEditor.Number
