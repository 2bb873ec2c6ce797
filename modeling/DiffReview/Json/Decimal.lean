/-!
# Decimals and the binary numbers nearest to them

A number written with a point or an exponent is kept as a decimal. It stands for the binary number
of 53 significant bits that is nearest to it, and of two equally near ones for the even one. The
rounding is done in exact integer arithmetic.
-/

namespace DiffReview

/-- The number `± digits · 10 ^ exponent`. -/
structure Decimal where
  negative : Bool
  digits : Nat
  exponent : Int
deriving DecidableEq

namespace Decimal

/-- What the nearest binary number is. -/
inductive Nearest
  | integer (n : Int)
  | fractional
  | infinite
deriving DecidableEq

/-- The quotient rounded to the nearest integer, a half going to the even neighbour. -/
def roundedQuotient (num den : Nat) : Nat :=
  let q := num / den
  let twice := 2 * (num % den)
  if twice < den then q else if den < twice then q + 1 else if q % 2 = 0 then q else q + 1

/-- The fraction `num / (den · 2 ^ shift)`. -/
def shifted (num den : Nat) (shift : Int) : Nat × Nat :=
  if 0 ≤ shift then (num, den <<< shift.toNat) else (num <<< (-shift).toNat, den)

/-- The shift that leaves 53 bits before the point of a positive fraction, but never less than the
spacing of the smallest binary numbers. -/
def shift (num den : Nat) : Int :=
  let guess : Int := (num.log2 : Int) - den.log2 - 53
  let f := shifted num den guess
  max (if f.1 < f.2 <<< 53 then guess else guess + 1) (-1074)

/-- The nearest binary number of a positive fraction, as a whole number of units `2 ^ shift`. -/
def nearestFraction (num den : Nat) : Nearest :=
  let s := shift num den
  let f := shifted num den s
  let units := roundedQuotient f.1 f.2
  if 0 ≤ s then
    let n := units <<< s.toNat
    if n.log2 < 1024 then .integer n else .infinite
  else if units % 1 <<< (-s).toNat = 0 then .integer (units >>> (-s).toNat : Nat)
  else .fractional

/-- The nearest binary number. Exponents far outside the range of binary numbers are answered
without computing the power of ten. -/
def nearest (d : Decimal) : Nearest :=
  let size :=
    if d.digits = 0 then .integer 0
    else if 400 < d.exponent then .infinite
    else if (d.digits.log2 : Int) + 1100 < -3 * d.exponent then .integer 0
    else if 0 ≤ d.exponent then nearestFraction (d.digits * Nat.pow 10 d.exponent.toNat) 1
    else nearestFraction d.digits (Nat.pow 10 (-d.exponent).toNat)
  match size with
  | .integer n => .integer (if d.negative then -n else n)
  | other => other

example : nearest ⟨false, 70, -1⟩ = .integer 7 := by decide
example : nearest ⟨false, 15, -1⟩ = .fractional := by decide
example : nearest ⟨true, 1, 20⟩ = .integer (-100000000000000000000) := by decide
example : nearest ⟨false, 9007199254740993, 0⟩ = .integer 9007199254740992 := by decide
example : nearest ⟨false, 5, -400⟩ = .integer 0 ∧ nearest ⟨false, 1, 309⟩ = .infinite := by
  decide +kernel

end Decimal
end DiffReview
