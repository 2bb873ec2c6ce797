import DiffReview.Text.Classes

/-!
# Quoted texts and names

A text is shown in messages between quotes. Single quotes are used unless the text holds a single
quote and no double quote. The quote in use, the backslash and every unprintable character are
escaped, so the shown form is printable. The members of a small class are known by names, and a name
that no member has is reported in quotes, together with the class.
-/

namespace DiffReview

namespace Text

/-- The hexadecimal digits of a number, filled up with zeros to a width. -/
def hex (width n : Nat) : List Char :=
  let digits := Nat.toDigits 16 n
  List.replicate (width - digits.length) '0' ++ digits

/-- The quote put around a text. -/
def quoteOf (cs : List Char) : Char :=
  if cs.contains '\'' && !cs.contains '"' then '"' else '\''

/-- A character as it is shown between the given quotes. -/
def quotedChar (quote c : Char) : List Char :=
  if c = quote || c = '\\' then ['\\', c]
  else if c = '\n' then ['\\', 'n']
  else if c = '\r' then ['\\', 'r']
  else if c = '\t' then ['\\', 't']
  else if isPrintable c then [c]
  else if c.toNat < 0x100 then ['\\', 'x'] ++ hex 2 c.toNat
  else if c.toNat < 0x10000 then ['\\', 'u'] ++ hex 4 c.toNat
  else ['\\', 'U'] ++ hex 8 c.toNat

/-- The shown form of a text, quotes included. -/
def quoted (text : String) : String :=
  let cs := text.toList
  let quote := quoteOf cs
  String.ofList (quote :: cs.flatMap (quotedChar quote) ++ [quote])

example : quoted "it's" = "\"it's\"" := by decide +kernel
example : quoted "a\"'\n" = "'a\"\\'\\n'" := by decide +kernel

end Text

/-- A name that no member of a class has. -/
structure UnknownName where
  /-- The class. -/
  expected : String
  name : String
deriving DecidableEq

namespace UnknownName

def message (e : UnknownName) : String :=
  Text.quoted e.name ++ " is not a valid " ++ e.expected

end UnknownName

namespace Text

variable {α : Type}

/-- The member that has a name. -/
def named? (all : List α) (nameOf : α → String) (name : String) : Option α :=
  all.find? fun a => nameOf a = name

/-- The member that has a name, or a report of the name. -/
def named (expected : String) (all : List α) (nameOf : α → String) (name : String) :
    Except UnknownName α :=
  match named? all nameOf name with
  | some a => .ok a
  | none => .error ⟨expected, name⟩

end Text

end DiffReview
