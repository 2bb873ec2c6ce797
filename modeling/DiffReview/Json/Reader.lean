import DiffReview.Json.Basic

/-!
# Reading JSON

Readers take a value from the front of a text and give back the rest. Every reader but those of
values shortens the text by structural recursion. The readers of values take a bound on the number
of nested calls, which the length of the text always satisfies.
-/

namespace DiffReview.Json

/-- Blanks allowed between tokens. -/
def isSpace (c : Char) : Bool := c = ' ' || c = '\t' || c = '\n' || c = '\r'

def hexDigit? (c : Char) : Option Nat :=
  if '0' ≤ c ∧ c ≤ '9' then some (c.toNat - '0'.toNat)
  else if 'a' ≤ c ∧ c ≤ 'f' then some (c.toNat - 'a'.toNat + 10)
  else if 'A' ≤ c ∧ c ≤ 'F' then some (c.toNat - 'A'.toNat + 10)
  else none

def hexUnit? (a b c d : Char) : Option Nat := do
  return (((← hexDigit? a) * 16 + (← hexDigit? b)) * 16 + (← hexDigit? c)) * 16 + (← hexDigit? d)

/-- The character that a one-letter escape stands for. -/
def escape? (c : Char) : Option Char :=
  match c with
  | '"' => some '"'
  | '\\' => some '\\'
  | '/' => some '/'
  | 'b' => some '\x08'
  | 'f' => some '\x0c'
  | 'n' => some '\n'
  | 'r' => some '\r'
  | 't' => some '\t'
  | _ => none

/-- Reads a string after its opening quote. A pending unit is the first half of a character
written as two escapes; the characters read so far are kept in reverse. -/
def readString (pending : Option Nat) (taken : List Char) : List Char → Option (String × List Char)
  | [] => none
  | '\\' :: 'u' :: a :: b :: c :: d :: rest =>
    match hexUnit? a b c d, pending with
    | none, _ => none
    | some unit, none =>
      if 0xD800 ≤ unit ∧ unit < 0xDC00 then readString (some unit) taken rest
      else if 0xDC00 ≤ unit ∧ unit < 0xE000 then none
      else readString none (Char.ofNat unit :: taken) rest
    | some unit, some first =>
      if 0xDC00 ≤ unit ∧ unit < 0xE000 then
        let code := 0x10000 + (first - 0xD800) * 0x400 + (unit - 0xDC00)
        readString none (Char.ofNat code :: taken) rest
      else none
  | '\\' :: c :: rest =>
    match escape? c, pending with
    | some e, none => readString none (e :: taken) rest
    | _, _ => none
  | c :: rest =>
    if pending.isSome || c.toNat < 0x20 || c = '\\' then none
    else if c = '"' then some (String.ofList taken.reverse, rest)
    else readString none (c :: taken) rest

/-- The number written by a run of digits. -/
def digitsValue (ds : List Char) : Nat :=
  ds.foldl (fun n c => 10 * n + (c.toNat - '0'.toNat)) 0

/-- Splits off the digits at the front. -/
def readDigits (s : List Char) : List Char × List Char :=
  (s.takeWhile Char.isDigit, s.dropWhile Char.isDigit)

/-- Reads the digits after the point, if there is one. -/
def readFraction : List Char → Option (Option (List Char) × List Char)
  | '.' :: s =>
    match readDigits s with
    | ([], _) => none
    | (ds, rest) => some (some ds, rest)
  | s => some (none, s)

/-- Reads the exponent, if there is one. -/
def readExponent : List Char → Option (Option Int × List Char)
  | c :: s =>
    if c = 'e' || c = 'E' then
      let signed := match s with
        | '-' :: t => (true, t)
        | '+' :: t => (false, t)
        | t => (false, t)
      match readDigits signed.2 with
      | ([], _) => none
      | (ds, rest) =>
        let n : Int := digitsValue ds
        some (some (if signed.1 then -n else n), rest)
    else some (none, c :: s)
  | [] => some (none, [])

/-- Reads a number. A leading zero stands alone. -/
def readNumber (s : List Char) : Option (Json × List Char) :=
  let signed := match s with
    | '-' :: t => (true, t)
    | t => (false, t)
  match readDigits signed.2 with
  | ([], _) => none
  | (whole, rest) =>
    if whole.head? = some '0' && whole.length ≠ 1 then none
    else match readFraction rest with
      | none => none
      | some (fraction, rest) =>
        match readExponent rest with
        | none => none
        | some (exponent, rest) =>
          if fraction.isNone && exponent.isNone then
            let n : Int := digitsValue whole
            some (.int (if signed.1 then -n else n), rest)
          else
            let places := fraction.getD []
            let d : Decimal :=
              ⟨signed.1, digitsValue (whole ++ places), exponent.getD 0 - places.length⟩
            some (.float d, rest)

/-- Reads a fixed word. -/
def readWord (word : List Char) (v : Json) (s : List Char) : Option (Json × List Char) :=
  (word.isPrefixOf? s).map fun rest => (v, rest)

mutual

/-- Reads a value that may have blanks before it. -/
def readValue : Nat → List Char → Option (Json × List Char)
  | 0, _ => none
  | bound + 1, s =>
    match s.dropWhile isSpace with
    | '"' :: s => (readString none [] s).map fun p => (.str p.1, p.2)
    | '[' :: s =>
      match s.dropWhile isSpace with
      | ']' :: rest => some (.arr [], rest)
      | s => (readItems bound s).map fun p => (.arr p.1, p.2)
    | '{' :: s =>
      match s.dropWhile isSpace with
      | '}' :: rest => some (.obj [], rest)
      | s => (readFields bound s).map fun p => (.obj p.1, p.2)
    | 'n' :: s => readWord ['u', 'l', 'l'] .null s
    | 't' :: s => readWord ['r', 'u', 'e'] (.bool true) s
    | 'f' :: s => readWord ['a', 'l', 's', 'e'] (.bool false) s
    | 'I' :: s => readWord "nfinity".toList (.nonFinite .infinity) s
    | '-' :: 'I' :: s => readWord "nfinity".toList (.nonFinite .minusInfinity) s
    | 'N' :: s => readWord ['a', 'N'] (.nonFinite .notANumber) s
    | s => readNumber s

/-- Reads one or more values up to the closing bracket. -/
def readItems : Nat → List Char → Option (List Json × List Char)
  | 0, _ => none
  | bound + 1, s =>
    match readValue bound s with
    | none => none
    | some (v, s) =>
      match s.dropWhile isSpace with
      | ']' :: rest => some ([v], rest)
      | ',' :: s => (readItems bound s).map fun p => (v :: p.1, p.2)
      | _ => none

/-- Reads one or more fields up to the closing brace. -/
def readFields : Nat → List Char → Option (List (String × Json) × List Char)
  | 0, _ => none
  | bound + 1, s =>
    match s.dropWhile isSpace with
    | '"' :: s =>
      match readString none [] s with
      | none => none
      | some (name, s) =>
        match s.dropWhile isSpace with
        | ':' :: s =>
          match readValue bound s with
          | none => none
          | some (v, s) =>
            match s.dropWhile isSpace with
            | '}' :: rest => some ([(name, v)], rest)
            | ',' :: s => (readFields bound s).map fun p => ((name, v) :: p.1, p.2)
            | _ => none
        | _ => none
    | _ => none

end

/-- The value that a text writes, blanks around it allowed. -/
def ofText? (text : List Char) : Option Json :=
  match readValue (2 * text.length + 1) text with
  | some (v, rest) => if rest.all isSpace then some v else none
  | none => none

end DiffReview.Json
