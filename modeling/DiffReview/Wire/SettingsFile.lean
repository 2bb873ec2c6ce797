import DiffReview.Text.Classes
import DiffReview.Text.Line

/-!
# Settings files

A settings file is read entry by entry. An entry is a name and, behind an equals sign, its value.
A value is either quoted, and then it may hold line ends and escapes, or it is the rest of the line
up to a comment. An entry counts only if nothing but a comment follows it on its line. In a value,
a name between braces after a dollar sign stands for the value of that name.

Every reader gives back an end of its text, so that reading entry by entry comes to an end.
-/

namespace DiffReview

/-- Names and their values, in the order in which the names were first set. A name may be set
without a value. -/
abbrev Settings := List (String × Option String)

namespace Settings

/-- Sets a name. A name that is set already keeps its place. -/
def put (settings : Settings) (name : String) (value : Option String) : Settings :=
  if settings.any (·.1 = name) then
    settings.map fun s => if s.1 = name then (name, value) else s
  else settings ++ [(name, value)]

end Settings

namespace SettingsFile

/-- A blank that does not end a line. -/
def isPadding (c : Char) : Bool := Text.isBlank c && c ≠ '\n'

/-- The line that a text starts with. -/
def line (s : List Char) : List Char := s.takeWhile (· ≠ '\n')

/-- What follows the line that a text starts with. -/
def nextLine (s : List Char) : List Char := (s.dropWhile (· ≠ '\n')).drop 1

/-- Passing to the next line uses up some of a text that is not empty. -/
theorem length_nextLine_lt {s : List Char} (h : s ≠ []) : (nextLine s).length < s.length := by
  have hle := (List.dropWhile_suffix (· ≠ '\n') : s.dropWhile (· ≠ '\n') <:+ s).length_le
  have hpos := List.length_pos_iff.2 h
  simp only [nextLine, List.length_drop]
  omega

/-- Reads up to the quote that closes. A quote behind a backslash closes only if no other does. -/
def readQuoted (quote : Char) : List Char → Option (List Char × List Char)
  | [] => none
  | [c] => if c = quote then some ([], []) else none
  | c :: d :: s =>
    if c = quote then some ([], d :: s)
    else if c = '\\' && d = quote then
      match readQuoted quote s with
      | some (t, rest) => some (c :: d :: t, rest)
      | none => some ([c], s)
    else (readQuoted quote (d :: s)).map fun p => (c :: p.1, p.2)

theorem readQuoted_suffix {quote : Char} {s t rest : List Char}
    (h : readQuoted quote s = some (t, rest)) : rest <:+ s := by
  fun_induction readQuoted quote s generalizing t rest with
  | case1 => simp at h
  | case2 => simp_all
  | case3 => simp at h
  | case4 d s =>
    simp only [Option.some.injEq, Prod.mk.injEq] at h
    exact h.2 ▸ List.suffix_cons _ _
  | case5 c d s _ _ u left hu ih =>
    simp only [Option.some.injEq, Prod.mk.injEq] at h
    exact h.2 ▸ ((ih hu).trans (List.suffix_cons _ _)).trans (List.suffix_cons _ _)
  | case6 c d s _ _ hu ih =>
    simp only [Option.some.injEq, Prod.mk.injEq] at h
    exact h.2 ▸ (List.suffix_cons _ _).trans (List.suffix_cons _ _)
  | case7 c d s _ _ ih =>
    obtain ⟨p, hp, he⟩ := Option.map_eq_some_iff.1 h
    simp only [Prod.mk.injEq] at he
    exact he.2 ▸ (ih hp).trans (List.suffix_cons _ _)

/-- Replaces the escapes that are known; other backslashes stand for themselves. -/
def unescaped (known : Char → Option Char) : List Char → List Char
  | [] => []
  | [c] => [c]
  | c :: d :: s =>
    match (if c = '\\' then known d else none) with
    | some e => e :: unescaped known s
    | none => c :: unescaped known (d :: s)

/-- The escapes between single quotes. -/
def singleEscape? (c : Char) : Option Char :=
  if c = '\\' || c = '\x27' then some c else none

/-- The escapes between double quotes. -/
def doubleEscape? (c : Char) : Option Char :=
  match c with
  | '\\' => some '\\'
  | '\x27' => some '\x27'
  | '"' => some '"'
  | 'a' => some '\x07'
  | 'b' => some '\x08'
  | 'f' => some '\x0c'
  | 'n' => some '\n'
  | 'r' => some '\r'
  | 't' => some '\t'
  | 'v' => some '\x0b'
  | _ => none

/-- The part of a line before a comment, which starts with a hash behind a blank. -/
def beforeComment : List Char → List Char
  | [] => []
  | [c] => [c]
  | c :: d :: s => if Text.isBlank c && d = '#' then [] else c :: beforeComment (d :: s)

/-- Reads a value. -/
def readValue (s : List Char) : Option (List Char × List Char) :=
  match s with
  | '\x27' :: s => (readQuoted '\x27' s).map fun p => (unescaped singleEscape? p.1, p.2)
  | '"' :: s => (readQuoted '"' s).map fun p => (unescaped doubleEscape? p.1, p.2)
  | s => some (Text.trimEnd Text.isBlank (beforeComment (line s)), s.dropWhile (· ≠ '\n'))

theorem readValue_suffix {s value rest : List Char} (h : readValue s = some (value, rest)) :
    rest <:+ s := by
  unfold readValue at h
  split at h
  · obtain ⟨p, hp, he⟩ := Option.map_eq_some_iff.1 h
    simp only [Prod.mk.injEq] at he
    exact he.2 ▸ (readQuoted_suffix hp).trans (List.suffix_cons _ _)
  · obtain ⟨p, hp, he⟩ := Option.map_eq_some_iff.1 h
    simp only [Prod.mk.injEq] at he
    exact he.2 ▸ (readQuoted_suffix hp).trans (List.suffix_cons _ _)
  · simp only [Option.some.injEq, Prod.mk.injEq] at h
    exact h.2 ▸ List.dropWhile_suffix _

/-- Passes over the word `export` and the blanks behind it. -/
def afterExport (s : List Char) : List Char :=
  let rest := s.drop "export".length
  if "export".toList.isPrefixOf s && (rest.head?.any isPadding) then rest.dropWhile isPadding
  else s

theorem afterExport_suffix (s : List Char) : afterExport s <:+ s := by
  simp only [afterExport]
  split
  · exact (List.dropWhile_suffix _).trans (List.drop_suffix _ _)
  · exact List.suffix_rfl

/-- A character that may stand in a name without quotes. -/
def isNameChar (c : Char) : Bool := c ≠ '=' && c ≠ '#' && !Text.isBlank c

/-- Reads a name, which is not empty and may stand between single quotes. -/
def readName (s : List Char) : Option (List Char × List Char) :=
  match s with
  | '\x27' :: s =>
    match s.dropWhile (· ≠ '\x27') with
    | [] => none
    | _ :: rest =>
      if s.head? = some '\x27' then none else some (s.takeWhile (· ≠ '\x27'), rest)
  | s =>
    match s.takeWhile isNameChar with
    | [] => none
    | name => some (name, s.dropWhile isNameChar)

theorem readName_suffix {s name rest : List Char} (h : readName s = some (name, rest)) :
    rest <:+ s := by
  unfold readName at h
  split at h
  · rename_i s
    split at h
    · simp at h
    · rename_i c left hd
      have hs : c :: left <:+ s := hd ▸ List.dropWhile_suffix _
      split at h
      · simp at h
      · simp only [Option.some.injEq, Prod.mk.injEq] at h
        exact h.2 ▸ ((List.suffix_cons _ _).trans hs).trans (List.suffix_cons _ _)
  · split at h
    · simp at h
    · simp only [Option.some.injEq, Prod.mk.injEq] at h
      exact h.2 ▸ List.dropWhile_suffix _

/-- A name and its value, if it has one. -/
structure Entry where
  name : List Char
  value : Option (List Char)
deriving DecidableEq

/-- Reads an entry and gives back how far it got. -/
def readEntry (s : List Char) : Option Entry × List Char :=
  match readName (afterExport s) with
  | none => (none, s)
  | some (name, rest) =>
    match rest.dropWhile isPadding with
    | '=' :: t =>
      match readValue (t.dropWhile isPadding) with
      | some (value, rest) => (some ⟨name, some value⟩, rest)
      | none => (none, t)
    | rest => (some ⟨name, none⟩, rest)

theorem readEntry_suffix (s : List Char) : (readEntry s).2 <:+ s := by
  unfold readEntry
  split
  · exact List.suffix_rfl
  · rename_i name rest hname
    have hrest : rest.dropWhile isPadding <:+ s :=
      ((List.dropWhile_suffix _).trans (readName_suffix hname)).trans (afterExport_suffix s)
    split
    · rename_i t heq
      have ht : t <:+ s := (List.suffix_cons _ _).trans (heq ▸ hrest)
      split
      · rename_i value left hvalue
        exact ((readValue_suffix hvalue).trans (List.dropWhile_suffix _)).trans ht
      · exact ht
    · exact hrest

/-- Nothing but a comment stands on the line that a text starts with. -/
def endsLine (s : List Char) : Bool :=
  match (line s).dropWhile Text.isBlank with
  | [] => true
  | c :: _ => c = '#'

/-- The entries of a text. -/
def entries (s : List Char) : List Entry :=
  if _h : s.dropWhile Text.isBlank = [] then []
  else
    let read := readEntry (s.dropWhile Text.isBlank)
    let more := entries (nextLine read.2)
    if endsLine read.2 then read.1.toList ++ more else more
termination_by s.length
decreasing_by
  have hle := (List.dropWhile_suffix Text.isBlank : s.dropWhile Text.isBlank <:+ s).length_le
  have hread := (readEntry_suffix (s.dropWhile Text.isBlank)).length_le
  by_cases hnil : (readEntry (s.dropWhile Text.isBlank)).2 = []
  · have hpos := List.length_pos_iff.2 _h
    simp only [hnil, nextLine, List.dropWhile_nil, List.drop_nil, List.length_nil]
    omega
  · have hlt := length_nextLine_lt hnil
    omega

/-- A name that stands for its value, with what stands for it if it is not set. -/
structure Reference where
  name : List Char
  absent : List Char
  rest : List Char

/-- Reads a reference behind its opening brace. -/
def readReference (s : List Char) : Option Reference :=
  let name := s.takeWhile fun c => c ≠ '}' && c ≠ ':'
  match s.dropWhile fun c => c ≠ '}' && c ≠ ':' with
  | '}' :: rest => some ⟨name, [], rest⟩
  | ':' :: '-' :: t =>
    match t.dropWhile (· ≠ '}') with
    | _ :: rest => some ⟨name, t.takeWhile (· ≠ '}'), rest⟩
    | [] => none
  | _ => none

theorem readReference_suffix {s : List Char} {r : Reference} (h : readReference s = some r) :
    r.rest <:+ s := by
  have hs : (s.dropWhile fun c => c ≠ '}' && c ≠ ':') <:+ s := List.dropWhile_suffix _
  unfold readReference at h
  split at h
  · rename_i heq
    simp only [Option.some.injEq] at h
    subst h
    exact (List.suffix_cons _ _).trans (heq ▸ hs)
  · rename_i t heq
    split at h
    · rename_i c left hleft
      simp only [Option.some.injEq] at h
      subst h
      have ht : c :: left <:+ t := hleft ▸ List.dropWhile_suffix _
      have hts : t <:+ s :=
        ((List.suffix_cons _ _).trans (List.suffix_cons _ _)).trans (heq ▸ hs)
      exact ((List.suffix_cons _ _).trans ht).trans hts
    · simp at h
  · simp at h

/-- What a reference stands for. A name that is set without a value stands for nothing. -/
def Reference.value (known : Settings) (r : Reference) : List Char :=
  match known.lookup (String.ofList r.name) with
  | some value => (value.getD "").toList
  | none => r.absent

/-- A value with every reference replaced by what it stands for. -/
def resolved (known : Settings) (s : List Char) : List Char :=
  match s with
  | [] => []
  | c :: s =>
    match _h : (if c = '$' && s.head? = some '{' then readReference s.tail else none) with
    | some r => r.value known ++ resolved known r.rest
    | none => c :: resolved known s
termination_by s.length
decreasing_by
  · split at _h
    · have hle := (readReference_suffix _h).length_le
      simp only [List.length_tail, List.length_cons] at hle ⊢
      omega
    · simp at _h
  · simp

/-- Makes the setting of an entry. References are looked up in what the file has set before, then
in the environment. -/
def set (environment settings : Settings) (entry : Entry) : Settings :=
  settings.put (String.ofList entry.name)
    (entry.value.map fun v => String.ofList (resolved (settings ++ environment) v))

/-- A text without the byte order mark that it may start with. -/
def withoutMark : List Char → List Char
  | [] => []
  | c :: s => if c = '\uFEFF' then s else c :: s

/-- The settings that the text of a file makes. -/
def read (environment : Settings) (text : String) : Settings :=
  (entries (Text.unifyNewlines (withoutMark text.toList))).foldl (set environment) []

example : read [] "A=1 # one\nexport B = 'x y'\nA=2\nC=${B}!" =
    [("A", some "2"), ("B", some "x y"), ("C", some "x y!")] := by decide +kernel

end SettingsFile
end DiffReview
