/-!
# Numerals

A decimal digit is a character of the Unicode category `Nd`. These come in runs of ten
consecutive characters, one run for each script, in the order of their values. A numeral is
converted only up to a length of 4300 digits, leading zeros included. A longer one is refused with
its length, whatever its value. A number whose numeral would be longer is not written either, and
this is refused without a length.
-/

namespace DiffReview

namespace Text

/-- The code point of the digit zero of each script. -/
def zeros : List Nat :=
  [0x30, 0x660, 0x6F0, 0x7C0, 0x966, 0x9E6, 0xA66, 0xAE6, 0xB66, 0xBE6, 0xC66, 0xCE6, 0xD66,
   0xDE6, 0xE50, 0xED0, 0xF20, 0x1040, 0x1090, 0x17E0, 0x1810, 0x1946, 0x19D0, 0x1A80, 0x1A90,
   0x1B50, 0x1BB0, 0x1C40, 0x1C50, 0xA620, 0xA8D0, 0xA900, 0xA9D0, 0xA9F0, 0xAA50, 0xABF0,
   0xFF10, 0x104A0, 0x10D30, 0x11066, 0x110F0, 0x11136, 0x111D0, 0x112F0, 0x11450, 0x114D0,
   0x11650, 0x116C0, 0x11730, 0x118E0, 0x11950, 0x11C50, 0x11D50, 0x11DA0, 0x16A60, 0x16AC0,
   0x16B50, 0x1D7CE, 0x1D7D8, 0x1D7E2, 0x1D7EC, 0x1D7F6, 0x1E140, 0x1E2F0, 0x1E950, 0x1FBF0]

/-- The value of a decimal digit of any script. -/
def digit? (c : Char) : Option Nat :=
  zeros.findSome? fun first =>
    if first ≤ c.toNat ∧ c.toNat < first + 10 then some (c.toNat - first) else none

def isDigit (c : Char) : Bool := (digit? c).isSome

/-- The number that a run of digits writes, the most significant digit first. -/
def ofDigits (digits : List Char) : Nat :=
  digits.foldl (fun n c => 10 * n + (digit? c).getD 0) 0

example : digit? '7' = some 7 ∧ digit? '٣' = some 3 ∧ digit? '²' = none := by decide

end Text

/-- A numeral was refused for its length. -/
structure NumeralTooLong where
  digits : Nat
deriving DecidableEq

namespace NumeralTooLong

def message (e : NumeralTooLong) : String :=
  "Exceeds the limit (4300 digits) for integer string conversion: value has " ++
    toString e.digits ++ " digits; use sys.set_int_max_str_digits() to increase the limit"

end NumeralTooLong

/-- A number was not written because its numeral would be too long. -/
structure NumberTooLong where
  number : Int
deriving DecidableEq

namespace NumberTooLong

def message (_ : NumberTooLong) : String :=
  "Exceeds the limit (4300 digits) for integer string conversion; " ++
    "use sys.set_int_max_str_digits() to increase the limit"

end NumberTooLong

namespace Text

/-- The greatest number of digits that is converted. -/
def maxDigits : Nat := 4300

/-- The value of a run of digits. -/
def numeral (digits : List Char) : Except NumeralTooLong Nat :=
  if digits.length ≤ maxDigits then .ok (ofDigits digits) else .error ⟨digits.length⟩

theorem numeral_eq_ok_iff {digits : List Char} {n : Nat} :
    numeral digits = .ok n ↔ digits.length ≤ maxDigits ∧ n = ofDigits digits := by
  by_cases h : digits.length ≤ maxDigits <;> simp [numeral, h, eq_comm]

theorem numeral_eq_error_iff {digits : List Char} {e : NumeralTooLong} :
    numeral digits = .error e ↔ maxDigits < digits.length ∧ e = ⟨digits.length⟩ := by
  by_cases h : digits.length ≤ maxDigits
  · simp [numeral, h, Nat.not_lt.2 h]
  · simp [numeral, h, Nat.lt_of_not_le h, eq_comm]

end Text

end DiffReview
