import DiffReview.Json.Basic
import DiffReview.Text.Numeral
import DiffReview.Text.Quoted

/-!
# Printing JSON

The layout is indented with two blanks for each level, and an empty array or object stays on its
line. In a string only the quote, the backslash and the characters below the space are escaped; all
others stand for themselves. Nothing is printed of a value that holds an integer with more digits
than are converted.
-/

namespace DiffReview.Json

/-- A character as it stands in a string. -/
def escaped (c : Char) : List Char :=
  if c = '"' || c = '\\' then ['\\', c]
  else if c = '\n' then ['\\', 'n']
  else if c = '\r' then ['\\', 'r']
  else if c = '\t' then ['\\', 't']
  else if c = '\x08' then ['\\', 'b']
  else if c = '\x0c' then ['\\', 'f']
  else if c.toNat < 0x20 then ['\\', 'u'] ++ Text.hex 4 c.toNat
  else [c]

def stringText (s : String) : List Char :=
  '"' :: s.toList.flatMap escaped ++ ['"']

def natText (n : Nat) : List Char := Nat.toDigits 10 n

def intText : Int → List Char
  | .ofNat n => natText n
  | .negSucc n => '-' :: natText (n + 1)

def decimalText (d : Decimal) : List Char :=
  (if d.negative then ['-'] else []) ++ natText d.digits ++ 'e' :: intText d.exponent

/-- The start of a line at a level of nesting. -/
def margin (level : Nat) : List Char := '\n' :: List.replicate (2 * level) ' '

mutual

/-- The indented layout of a value that stands at a level of nesting. -/
def indented (level : Nat) : Json → List Char
  | .arr [] => ['[', ']']
  | .arr items => '[' :: indentedItems (level + 1) items ++ margin level ++ [']']
  | .obj [] => ['{', '}']
  | .obj fields => '{' :: indentedFields (level + 1) fields ++ margin level ++ ['}']
  | .null => ['n', 'u', 'l', 'l']
  | .bool true => ['t', 'r', 'u', 'e']
  | .bool false => ['f', 'a', 'l', 's', 'e']
  | .int n => intText n
  | .float d => decimalText d
  | .nonFinite x => x.word.toList
  | .str s => stringText s

def indentedItems (level : Nat) : List Json → List Char
  | [] => []
  | [v] => margin level ++ indented level v
  | v :: vs => margin level ++ indented level v ++ ',' :: indentedItems level vs

def indentedFields (level : Nat) : List (String × Json) → List Char
  | [] => []
  | [(name, v)] => margin level ++ stringText name ++ ':' :: ' ' :: indented level v
  | (name, v) :: fs =>
    margin level ++ stringText name ++ ':' :: ' ' :: indented level v ++
      ',' :: indentedFields level fs

end

mutual

/-- The integers in a value, in the order in which they are printed. -/
def integers : Json → List Int
  | .int n => [n]
  | .arr items => itemIntegers items
  | .obj fields => fieldIntegers fields
  | _ => []

def itemIntegers : List Json → List Int
  | [] => []
  | v :: vs => integers v ++ itemIntegers vs

def fieldIntegers : List (String × Json) → List Int
  | [] => []
  | (_, v) :: fs => integers v ++ fieldIntegers fs

end

@[simp] theorem integers_arr (items : List Json) :
    (arr items).integers = items.flatMap integers := by
  rw [integers]
  induction items with
  | nil => rfl
  | cons v items ih => rw [itemIntegers, ih, List.flatMap_cons]

@[simp] theorem integers_obj (fields : List (String × Json)) :
    (obj fields).integers = fields.flatMap fun field => field.2.integers := by
  rw [integers]
  induction fields with
  | nil => rfl
  | cons field fields ih => rw [fieldIntegers, ih, List.flatMap_cons]

/-- An integer has more digits than are converted. -/
def isTooLong (n : Int) : Bool := Text.maxDigits < (natText n.natAbs).length

/-- The indented text of a value. The first integer that is too long is refused. -/
def toIndentedText (v : Json) : Except NumberTooLong String :=
  match v.integers.find? isTooLong with
  | some n => .error ⟨n⟩
  | none => .ok (String.ofList (indented 0 v))

end DiffReview.Json
