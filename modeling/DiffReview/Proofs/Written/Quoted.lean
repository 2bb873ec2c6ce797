import DiffReview.Proofs.Written.RoundTrip
import DiffReview.Text.Classes

/-!
# Quoted paths

A writer puts a path with unusual characters between quotes, the root of its side included. The
block reader cuts such a command line in the right place but leaves the quotes on both sides, and
behind a quote no root is found. So the two sides never have the same path: every block with quoted
paths is reported as a renaming between them, and its language is unknown.
-/
namespace DiffReview

/-- The two sides of a file, as a command line and the path lines behind it spell them. -/
structure Sides where
  old : List Char
  new : List Char
  oldBelow : Heading.isBelow 'a' old = true
  newBelow : Heading.isBelow 'b' new = true
  /-- Nothing in the new side looks like the start of another path. -/
  last : ∀ rest, ' ' :: rest <:+ new → Heading.isBelow 'b' rest = false
  oldNoTab : '\t' ∉ old
  newNoTab : '\t' ∉ new
  oldNoNewline : '\n' ∉ old
  newNoNewline : '\n' ∉ new

namespace Sides

def commandLine (sides : Sides) : Line := "diff --git ".toList ++ sides.old ++ ' ' :: sides.new

/-- The block of a change: a command line, header lines, the two path lines and the hunks. -/
def lines (sides : Sides) (remarks : List RemarkLine) (hunks : List WrittenHunk) : List Line :=
  sides.commandLine :: (remarks.map RemarkLine.line ++
    (Mark.sourceMark ++ sides.old) :: (Mark.targetMark ++ sides.new) ::
      hunks.flatMap WrittenHunk.lines)

def text (sides : Sides) (remarks : List RemarkLine) (hunks : List WrittenHunk) : String :=
  String.ofList (Text.join (sides.lines remarks hunks))

/-- The patch that the block is. -/
def patch (sides : Sides) (hunks : List WrittenHunk) : Patch :=
  ⟨sides.old, sides.new, false, hunks.map (·.hunk)⟩

variable (sides : Sides) (remarks : List RemarkLine) (hunks : List WrittenHunk)

/-- The patch has the changes of the hunks. -/
theorem mapM_numbered_patch : (sides.patch hunks).numbered.mapM Numbered.change? =
    some (hunks.flatMap fun h => h.hunk.changes) := by
  rw [Patch.numbered, patch, List.flatMap_map]
  exact WrittenHunk.mapM_flatMap_numbered hunks

theorem newline_not_mem_lines : ∀ line ∈ sides.lines remarks hunks, '\n' ∉ line := by
  have ho := sides.oldNoNewline
  have hn := sides.newNoNewline
  intro line hl
  rw [lines, List.mem_cons, List.mem_append, List.mem_cons, List.mem_cons] at hl
  rcases hl with rfl | hl | rfl | rfl | hl
  · unfold commandLine
    simp [ho, hn]
  · obtain ⟨l, -, rfl⟩ := List.mem_map.1 hl
    exact FileEntry.newline_not_mem_remark l
  · simp [Mark.sourceMark, ho]
  · simp [Mark.targetMark, hn]
  · obtain ⟨h, -, hl⟩ := List.mem_flatMap.1 hl
    exact h.newline_not_mem_lines line hl

/-- The text is one block. -/
theorem split_text : Block.split (sides.text remarks hunks) = .ok [sides.lines remarks hunks] := by
  have hcommand (next : Option Line) : ScanState.place {} sides.commandLine next =
      .ok (.opens, ⟨true, true, false, false, 0, 0⟩) :=
    ScanState.place_of_outside ⟨Int.le_refl 0, Int.le_refl 0⟩ (.command rfl)
  have hremarks : ∀ line ∈ remarks.map RemarkLine.line, Line.InHeader line := by
    intro line hl
    obtain ⟨l, -, rfl⟩ := List.mem_map.1 hl
    exact Line.inHeader_remark l
  obtain ⟨before, hheader, hbefore⟩ := Scan.Run.header (s := ⟨true, true, false, false, 0, 0⟩)
    rfl rfl rfl ⟨Int.le_refl 0, Int.le_refl 0⟩ hremarks
  have hpaths (next : Option Line) := Scan.Run.paths_of_header
    (s := ⟨true, true, false, false, 0, 0⟩) rfl rfl ⟨Int.le_refl 0, Int.le_refl 0⟩
    sides.old sides.new next
  obtain ⟨placed, t, hrun, hplaced, -⟩ := Scan.Run.hunks
    (s := ⟨true, false, false, false, 0, 0⟩) rfl ⟨Int.le_refl 0, Int.le_refl 0⟩ rfl hunks
  have hkeeps := hbefore.append (.cons (.inl rfl) (Mark.sourceMark ++ sides.old)
    (.cons (.inl rfl) (Mark.targetMark ++ sides.new) hplaced))
  refine Block.ofLines_eq_ok_iff.2 ⟨_, t, .step (hcommand _)
    ((hheader _).append ((hpaths _).append (hrun none))), ?_, ?_⟩
  · rw [List.map_cons, text, String.toList_ofList,
      Text.lines_join _ (newline_not_mem_lines sides remarks hunks), lines]
    exact congrArg _ hkeeps.lines
  · rw [Block.ofPlaced, Block.gather_cons]
    have hgather := hkeeps.gather_append []
    rw [List.append_nil] at hgather
    simp only [List.cons_append, List.nil_append] at hgather ⊢
    rw [hgather, Block.gather_nil, List.append_nil]
    rfl

/-- The block is read as one patch between its sides, with the numbered lines of its hunks. -/
theorem ofBlock_lines : ∃ added,
    Patch.ofBlock (sides.lines remarks hunks) = .ok [⟨sides.old, sides.new, false, added⟩] ∧
    added.flatMap Hunk.numbered = hunks.flatMap fun h => h.hunk.numbered := by
  have hcommand : ({} : PatchReader).readLine sides.commandLine =
      .ok ⟨[], some ⟨sides.old, sides.new, false, []⟩, true, none, none⟩ := by
    have hheading : Heading.ofLine sides.commandLine = .command sides.old sides.new :=
      Heading.ofLine_command sides.oldBelow sides.newBelow sides.oldNoTab sides.newNoTab sides.last
    rw [PatchReader.readLine_of_none rfl]
    simp only [PatchReader.readHeading, hheading]
    rfl
  obtain ⟨added, hcomplete, hadded⟩ := PatchReader.completes_hunks sides.old sides.new true
    (some sides.old) hunks
  have hpaths := PatchReader.reads_paths_of_header sides.oldNoTab sides.newNoTab
  refine ⟨added, Patch.ofBlock_eq_ok_iff.2 (PatchReader.completes_cons.2 ⟨_, hcommand, ?_⟩), hadded⟩
  exact PatchReader.Completes.append (PatchReader.reads_remarks rfl rfl remarks)
    (.append hpaths hcomplete)

/-- The text is read as the file that its patch describes. -/
theorem parse_text {file : FileChange} (h : (sides.patch hunks).fileChange? = some file) :
    ParsedDiff.parse (sides.text remarks hunks) = .ok ⟨[file]⟩ := by
  obtain ⟨added, hblock, hadded⟩ := ofBlock_lines sides remarks hunks
  have hfile : Patch.fileChange? ⟨sides.old, sides.new, false, added⟩ = some file := by
    rw [← h]
    simp only [Patch.fileChange?, Patch.numbered, patch, hadded, List.flatMap_map]
    rfl
  exact ParsedDiff.parse_eq_ok_iff.2 ⟨_, split_text sides remarks hunks,
    .cons (Block.fileChange_eq_ok_iff.2 ⟨_, hblock, hfile⟩) .nil⟩

end Sides

namespace Text

/-- Every quote of a text stands behind a backslash that is not itself behind one. -/
def isEscaped : List Char → Bool
  | [] => true
  | ['\\'] => true
  | '\\' :: _ :: text => isEscaped text
  | c :: text => c ≠ '"' && isEscaped text

example : isEscaped "x\\\"y\\\\".toList = true ∧ isEscaped "x\\\\\"y".toList = false := by decide

/-- An escaped quote does not stand behind a space. -/
theorem not_infix_of_isEscaped {text : List Char} (h : isEscaped text = true) :
    ¬ [' ', '"'] <:+: text := by
  induction text using isEscaped.induct with
  | case1 => simp
  | case2 => simp [List.infix_cons_iff]
  | case3 c text ih =>
    rw [isEscaped] at h
    rintro hi
    rcases List.infix_cons_iff.1 hi with hp | hi
    · simp at hp
    · rcases List.infix_cons_iff.1 hi with hp | hi
      · obtain ⟨rest, hr⟩ := hp
        obtain ⟨-, rfl⟩ : ' ' = c ∧ '"' :: rest = text := by simpa using hr
        simp [isEscaped] at h
      · exact ih h hi
  | case4 c text hempty hc ih =>
    rw [isEscaped] at h
    · obtain ⟨-, ht⟩ : c ≠ '"' ∧ isEscaped text = true := by simpa using h
      rintro hi
      rcases List.infix_cons_iff.1 hi with hp | hi
      · obtain ⟨rest, hr⟩ := hp
        obtain ⟨-, rfl⟩ : ' ' = c ∧ '"' :: rest = text := by simpa using hr
        simp [isEscaped] at ht
      · exact ih ht hi
    · exact hempty
    · exact hc

end Text

/-- A path as a writer puts it between quotes: its own quotes are escaped, and nothing in it looks
like the start of another path. -/
structure QuotedPath where
  chars : List Char
  nonempty : chars ≠ []
  noTab : '\t' ∉ chars
  noNewline : '\n' ∉ chars
  escaped : Text.isEscaped chars = true
  noMark : ¬ [' ', 'b', '/'] <:+: chars

namespace QuotedPath

/-- The path below a root, between quotes. -/
def quotedSide (path : QuotedPath) (root : Char) : List Char :=
  '"' :: root :: '/' :: (path.chars ++ ['"'])

/-- The path below a root, without quotes. -/
def bareSide (path : QuotedPath) (root : Char) : List Char := [root, '/'] ++ path.chars

theorem isBelow_quotedSide (path : QuotedPath) (root : Char) :
    Heading.isBelow root (path.quotedSide root) = true := by
  obtain ⟨c, rest, hc⟩ := List.exists_cons_of_ne_nil path.nonempty
  simp [quotedSide, hc, Heading.isBelow]

theorem not_mem_quotedSide (path : QuotedPath) {c root : Char} (hc : c ∉ ['"', root, '/'])
    (hp : c ∉ path.chars) : c ∉ path.quotedSide root := by
  simp_all [quotedSide]

theorem not_mem_bareSide (path : QuotedPath) {c root : Char} (hc : c ∉ [root, '/'])
    (hp : c ∉ path.chars) : c ∉ path.bareSide root := by
  simp_all [bareSide]

/-- A quote behind a space could only be the closing one. -/
theorem not_infix_quote (path : QuotedPath) (c : Char) :
    ¬ [' ', '"', c] <:+: path.chars ++ ['"'] := by
  have hno := Text.not_infix_of_isEscaped path.escaped
  intro h
  rcases List.infix_concat_iff.1 h with h | h
  · obtain h | ⟨front, hf, hs⟩ := List.suffix_concat_iff.1 h
    · cases h
    · obtain rfl : front = [' ', '"'] := by
        have hd := congrArg List.dropLast hf
        simpa using hd.symm
      exact hno hs.isInfix
  · exact hno (List.IsInfix.trans ⟨[], [c], rfl⟩ h)

/-- The closing quote is no root. -/
theorem not_infix_mark (path : QuotedPath) : ¬ [' ', 'b', '/'] <:+: path.chars ++ ['"'] := by
  intro h
  rcases List.infix_concat_iff.1 h with h | h
  · obtain h | ⟨front, hf, -⟩ := List.suffix_concat_iff.1 h
    · cases h
    · have hlast := congrArg List.getLast? hf
      simp at hlast
  · exact path.noMark h

/-- The two sides of a change of the path, between quotes. -/
def quoted (path : QuotedPath) : Sides where
  old := path.quotedSide 'a'
  new := path.quotedSide 'b'
  oldBelow := path.isBelow_quotedSide 'a'
  newBelow := path.isBelow_quotedSide 'b'
  last := fun _ h => Heading.isBelow_of_suffix path.not_infix_mark path.not_infix_quote
    (Heading.suffix_of_suffix_append ['"', 'b', '/'] (by decide) h)
  oldNoTab := path.not_mem_quotedSide (by decide) path.noTab
  newNoTab := path.not_mem_quotedSide (by decide) path.noTab
  oldNoNewline := path.not_mem_quotedSide (by decide) path.noNewline
  newNoNewline := path.not_mem_quotedSide (by decide) path.noNewline

/-- The two sides of a change of the path, without quotes. -/
def bare (path : QuotedPath) : Sides where
  old := path.bareSide 'a'
  new := path.bareSide 'b'
  oldBelow := Heading.isBelow_append (by decide) path.nonempty
  newBelow := Heading.isBelow_append (by decide) path.nonempty
  last := fun _ h => Heading.isBelow_of_suffix path.noMark
    (fun c hi => path.not_infix_quote c (hi.trans ⟨[], ['"'], rfl⟩))
    (Heading.suffix_of_suffix_append ['b', '/'] (by decide) h)
  oldNoTab := path.not_mem_bareSide (by decide) path.noTab
  newNoTab := path.not_mem_bareSide (by decide) path.noTab
  oldNoNewline := path.not_mem_bareSide (by decide) path.noNewline
  newNoNewline := path.not_mem_bareSide (by decide) path.noNewline

end QuotedPath

namespace Text

theorem afterLast_concat {mark c : Char} (hc : c ≠ mark) (text : List Char) :
    afterLast mark (text ++ [c]) = afterLast mark text ++ [c] := by
  simp [afterLast, hc]

end Text

namespace Language

/-- No extension of the table ends in a quote. -/
theorem ofPath_quote (path : List Char) : ofPath (String.ofList (path ++ ['"'])) = unknown := by
  have hbase : Text.afterLast '/' (path ++ ['"']) = Text.afterLast '/' path ++ ['"'] :=
    Text.afterLast_concat (by decide) path
  rw [ofPath, extension?, String.toList_ofList, hbase]
  split
  · rfl
  · rename_i extension he
    split at he
    · rw [Text.afterLast_concat (by decide), Option.some_inj] at he
      subst he
      cases hl : table.lookup _ with
      | none => rfl
      | some language =>
        have hno : ∀ entry ∈ table, entry.1.toList.getLast? ≠ some '"' := by decide
        have hlast := hno _ (mem_of_lookup_eq_some hl)
        simp at hlast
    · cases he

end Language

namespace QuotedPath

variable (path : QuotedPath) (hunks : List WrittenHunk)

/-- Between quotes the two sides keep their roots, so they differ. -/
theorem fileChange?_quoted : (path.quoted.patch hunks).fileChange? = some {
    filename := String.ofList (path.quotedSide 'b')
    oldFilename := some (String.ofList (path.quotedSide 'a'))
    status := .renamed
    language := Language.unknown
    binary := false
    changes := hunks.flatMap fun h => h.hunk.changes } := by
  have hstrip (root : Char) (hr : root ≠ '"') :
      Patch.stripRoot root (path.quotedSide root) = path.quotedSide root := by
    simp [Patch.stripRoot, quotedSide, List.isPrefixOf?, hr]
  have hold := hstrip 'a' (by decide)
  have hnew := hstrip 'b' (by decide)
  have hfile (root : Char) : path.quotedSide root ≠ Patch.noFile := by
    intro h
    have hhead : some '"' = some '/' := congrArg List.head? h
    exact absurd hhead (by decide)
  have hne : path.quotedSide 'a' ≠ path.quotedSide 'b' := by
    simp [quotedSide]
  have hstatus : Patch.status (path.quotedSide 'a') (path.quotedSide 'b') = .renamed := by
    rw [Patch.status, if_neg (hfile 'a'), if_neg (hfile 'b'), if_pos hne]
  have hlanguage : Language.ofPath (String.ofList (path.quotedSide 'b')) = Language.unknown :=
    Language.ofPath_quote ('"' :: 'b' :: '/' :: path.chars)
  rw [Patch.fileChange?, Sides.mapM_numbered_patch, Option.map_some]
  simp only [Sides.patch, quoted, hold, hnew, hstatus, hlanguage, reduceCtorEq, false_or, if_true,
    if_false]

/-- Without quotes the two sides are the path. -/
theorem fileChange?_bare : (path.bare.patch hunks).fileChange? = some {
    filename := String.ofList path.chars
    oldFilename := none
    status := if path.chars = Patch.noFile then .added else .modified
    language := Language.ofPath (String.ofList path.chars)
    binary := false
    changes := hunks.flatMap fun h => h.hunk.changes } := by
  have hold : Patch.stripRoot 'a' (path.bareSide 'a') = path.chars := Patch.stripRoot_append 'a' _
  have hnew : Patch.stripRoot 'b' (path.bareSide 'b') = path.chars := Patch.stripRoot_append 'b' _
  have hstatus : Patch.status path.chars path.chars =
      if path.chars = Patch.noFile then .added else .modified := by
    unfold Patch.status
    split_ifs <;> simp_all
  rw [Patch.fileChange?, Sides.mapM_numbered_patch, Option.map_some]
  simp only [Sides.patch, bare, hold, hnew, hstatus]
  split_ifs <;> simp_all

end QuotedPath

namespace ParsedDiff

/-- A block that names one path between quotes is read as a renaming between the quoted sides, of
unknown language. The same block without quotes is read as a modification of the path; only a path
that is spelled like a missing file counts as added. -/
theorem parse_quoted (path : QuotedPath) (remarks : List RemarkLine) (hunks : List WrittenHunk) :
    parse (path.quoted.text remarks hunks) = .ok ⟨[{
      filename := String.ofList (path.quotedSide 'b')
      oldFilename := some (String.ofList (path.quotedSide 'a'))
      status := .renamed
      language := Language.unknown
      binary := false
      changes := hunks.flatMap fun h => h.hunk.changes }]⟩ ∧
    parse (path.bare.text remarks hunks) = .ok ⟨[{
      filename := String.ofList path.chars
      oldFilename := none
      status := if path.chars = Patch.noFile then .added else .modified
      language := Language.ofPath (String.ofList path.chars)
      binary := false
      changes := hunks.flatMap fun h => h.hunk.changes }]⟩ :=
  ⟨path.quoted.parse_text remarks hunks (path.fileChange?_quoted hunks),
    path.bare.parse_text remarks hunks (path.fileChange?_bare hunks)⟩

/-- A path with a letter that a writer spells by its two bytes. -/
def escapedPath : QuotedPath where
  chars := "d\\303\\244.py".toList
  nonempty := by decide
  noTab := by decide
  noNewline := by decide
  escaped := by decide
  noMark := fun h => absurd (Text.occurs_iff.2 h) (by decide)

/-- A hunk that replaces the only line of a file. -/
def replacingHunk : WrittenHunk where
  header := ⟨⟨['1'], none⟩, ⟨['1'], none⟩⟩
  title := ⟨[], by decide⟩
  hunk := ⟨⟨1, 1⟩, ⟨1, 1⟩, [.removed ['a'], .added ['b']]⟩
  oldWritten := ⟨by decide, by decide⟩
  newWritten := ⟨by decide, by decide⟩
  oldSpan := by decide
  newSpan := by decide
  oldLength := by decide
  newLength := by decide
  oldStart := by decide
  newStart := by decide
  nonempty := by decide
  noNewline := by decide
  notes := by simp

/-- The change of the file at the path, as a writer writes it. -/
def escapedText : String :=
  "diff --git \"a/d\\303\\244.py\" \"b/d\\303\\244.py\"\n--- \"a/d\\303\\244.py\"\n" ++
    "+++ \"b/d\\303\\244.py\"\n@@ -1 +1 @@\n-a\n+b\n"

/-- What this change is read as. -/
def escapedFile : FileChange :=
  ⟨"\"b/d\\303\\244.py\"", some "\"a/d\\303\\244.py\"", .renamed, "Unknown", false,
    [⟨.removed, "a", some 1⟩, ⟨.added, "b", some 1⟩]⟩

/-- The change of one file is read as a renaming, with the quotes in both names and without its
language. -/
theorem not_modified_of_quotes :
    escapedPath.quoted.text [] [replacingHunk] = escapedText ∧
    parse escapedText = .ok ⟨[escapedFile]⟩ ∧
    Language.ofPath (String.ofList escapedPath.chars) = "Python" ∧
    ¬ ∀ (path : QuotedPath) (remarks : List RemarkLine) (hunks : List WrittenHunk),
      ∃ file, parse (path.quoted.text remarks hunks) = .ok ⟨[file]⟩ ∧ file.status = .modified ∧
        file.oldFilename = none ∧
        file.language = Language.ofPath (String.ofList path.chars) := by
  have ht : escapedPath.quoted.text [] [replacingHunk] = escapedText := by decide
  have hfile : (escapedPath.quoted.patch [replacingHunk]).fileChange? = some escapedFile := by
    decide
  have hp : parse escapedText = .ok ⟨[escapedFile]⟩ :=
    ht ▸ escapedPath.quoted.parse_text [] [replacingHunk] hfile
  refine ⟨ht, hp, by decide, fun hall => ?_⟩
  obtain ⟨file, hread, hstatus, -⟩ := hall escapedPath [] [replacingHunk]
  rw [ht, hp] at hread
  cases hread
  cases hstatus

end ParsedDiff
end DiffReview
