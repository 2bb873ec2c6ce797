import DiffReview.Text.Quoted
import DiffReview.Wire.Flaw
import DiffReview.Wire.IntText

/-!
# Reading scalars

Strings and members of a class are read as they are. Booleans and integers are also read from
other values that write one: from each other, from decimals, and from texts.
-/

namespace DiffReview.Wire

def readString : Json → Checked String
  | .str s => .ok s
  | v => .flawed [⟨[], .notString, v⟩]

/-- Reads a string that may be null. -/
def readOptionalString : Json → Checked (Option String)
  | .null => .ok none
  | .str s => .ok (some s)
  | v => .flawed [⟨[], .notString, v⟩]

/-- Reads a member of a class from its name. -/
def readMember {α : Type} (all : List α) (nameOf : α → String) (v : Json) : Checked α :=
  match v with
  | .str s =>
    match Text.named? all nameOf s with
    | some a => .ok a
    | none => .flawed [⟨[], .notMember (all.map nameOf), v⟩]
  | v => .flawed [⟨[], .notMember (all.map nameOf), v⟩]

/-- The truth value that a word writes, in any mixture of cases. -/
def boolOfText? (s : String) : Option Bool :=
  let word := String.ofList (s.toList.map Char.toLower)
  if word ∈ ["1", "true", "t", "yes", "y", "on"] then some true
  else if word ∈ ["0", "false", "f", "no", "n", "off"] then some false
  else none

/-- The end of the range of 64 bits with a sign, `2 ^ 63`. -/
def wordEnd : Int := 0x8000000000000000

/-- An integer fits into 64 bits with a sign. -/
def isWord64 (n : Int) : Bool := -wordEnd ≤ n && n < wordEnd

/-- The integer that a decimal stands for. It has to lie strictly between the ends of the range of
64 bits with a sign. -/
def intOfDecimal (d : Decimal) : Except Defect Int :=
  match d.nearest with
  | .integer n => if -wordEnd < n ∧ n < wordEnd then .ok n else .error .outOfRange
  | .fractional => .error .fractional
  | .infinite => .error .notFinite

/-- The truth value that a number writes. -/
def boolOfInt? (n : Int) : Option Bool :=
  if n = 0 then some false else if n = 1 then some true else none

/-- Reads a truth value. A number that is too large or has a fraction, as well as a value of
another kind, is not tried; any other number or text may still be found to write none. -/
def readBool (v : Json) : Checked Bool :=
  let tried : Option Bool → Checked Bool
    | some b => .ok b
    | none => .flawed [⟨[], .notBoolText, v⟩]
  match v with
  | .bool b => .ok b
  | .str s => tried (boolOfText? s)
  | .int n => if isWord64 n then tried (boolOfInt? n) else .flawed [⟨[], .notBool, v⟩]
  | .float d =>
    match intOfDecimal d with
    | .ok n => tried (boolOfInt? n)
    | .error _ => .flawed [⟨[], .notBool, v⟩]
  | _ => .flawed [⟨[], .notBool, v⟩]

/-- The defect of a text that is not read as an integer. -/
def IntTextError.defect : IntTextError → Defect
  | .malformed => .notIntText
  | .tooLong => .outOfRange

/-- Reads an integer. -/
def readInt (v : Json) : Checked Int :=
  let result : Except Defect Int := match v with
    | .int n => .ok n
    | .bool b => .ok (if b then 1 else 0)
    | .float d => intOfDecimal d
    | .nonFinite _ => .error .notFinite
    | .str s => (intOfText s).mapError IntTextError.defect
    | _ => .error .notInt
  match result with
  | .ok n => .ok n
  | .error defect => .flawed [⟨[], defect, v⟩]

end DiffReview.Wire
