import DiffReview.Json.Reader
import DiffReview.Text.Classes
import DiffReview.Text.Line
import DiffReview.Text.Numeral

/-!
# Texts that write integers

A text is read as an integer in two ways. The plain way takes a minus sign and digits and nothing
else. A text that is not plain is tidied first: white space around it, a plus sign, zeros in front,
a fraction of zeros and the underscores between digits are taken away, and what is left has to be
plain. A run of more digits than a numeral may have is reported as such only if it stands in the
text as given.
-/

namespace DiffReview.Wire

/-- Why a text is not read as an integer. -/
inductive IntTextError
  | malformed
  | tooLong
deriving DecidableEq

/-- The sign of a number and what follows it. -/
def signed : List Char → Bool × List Char
  | '-' :: s => (true, s)
  | s => (false, s)

/-- Reads the plain form of an integer, in which only the number zero starts with a zero. Too many
digits are reported whatever follows them. -/
def plainInt (s : List Char) : Except IntTextError Int :=
  let body := (signed s).2
  if body = ['0'] then .ok 0
  else if body.head? = some '0' then .error .malformed
  else
    let digits := body.takeWhile Char.isDigit
    if Text.maxDigits < digits.length then .error .tooLong
    else if digits = [] || digits.length < body.length then .error .malformed
    else
      let n : Int := Json.digitsValue digits
      .ok (if (signed s).1 then -n else n)

/-- Goes on behind zeros and underscores. The last of them stays if the whole part ends with it. -/
def afterZeros (last : Char) : List Char → Option (List Char)
  | [] => some [last]
  | c :: s =>
    if c = '0' || c = '_' then afterZeros c s
    else if c.isDigit || c = '-' then some (c :: s)
    else if c = '.' then some (last :: c :: s)
    else none

/-- Takes away the zeros in front of a number and the underscores among them. A number starts with
a digit or a minus sign, and either of these may also follow the zeros. -/
def withoutZeros : List Char → Option (List Char)
  | [] => none
  | c :: s =>
    if c = '0' then afterZeros c s
    else if c.isDigit || c = '-' then some (c :: s)
    else none

/-- Takes away a plus sign, which no minus sign may follow, and the zeros in front. Behind a minus
sign the zeros go as well. -/
def withoutFront : List Char → Option (List Char)
  | '-' :: s => (withoutZeros s).map ('-' :: ·)
  | '+' :: '-' :: _ => none
  | '+' :: s => withoutZeros s
  | s => withoutZeros s

/-- Takes away the point and everything behind it if that is zeros only. -/
def withoutZeroFraction (s : List Char) : List Char :=
  if ((s.dropWhile (· ≠ '.')).drop 1).all (· = '0') then s.takeWhile (· ≠ '.') else s

/-- Two underscores stand next to each other. -/
def hasDoubleUnderscore : List Char → Bool
  | '_' :: '_' :: _ => true
  | _ :: s => hasDoubleUnderscore s
  | [] => false

/-- Takes away underscores that stand alone and inside. -/
def withoutUnderscores (s : List Char) : List Char :=
  if s.head? = some '_' || s.getLast? = some '_' || hasDoubleUnderscore s then s
  else s.filter (· ≠ '_')

/-- The tidied form of a text. -/
def tidied? (s : List Char) : Option (List Char) :=
  let trimmed := (Text.trimEnd Text.isWhiteSpace s).dropWhile Text.isWhiteSpace
  (withoutFront trimmed).map fun t => withoutUnderscores (withoutZeroFraction t)

/-- The integer that a text writes. -/
def intOfText (s : String) : Except IntTextError Int :=
  match plainInt s.toList with
  | .ok n => .ok n
  | .error .tooLong => .error .tooLong
  | .error .malformed =>
    match (tidied? s.toList).map plainInt with
    | some (.ok n) => .ok n
    | _ => .error .malformed

example : (intOfText " +1_000.00 ").toOption = some 1000 := by decide +kernel
example : (intOfText "0__7").toOption = some 7 := by decide +kernel
example : (intOfText "0-7").toOption = some (-7) := by decide +kernel
example : (intOfText "1__0").toOption = none := by decide +kernel

end DiffReview.Wire
