import DiffReview.Proofs.Diff.Content

/-!
# Text of body lines

The changes of an accepted file are the lines of its hunk bodies without the notes, one to one and
in order. The marker of a line gives the kind of its change, and what stands behind the marker is
the content, without the carriage returns at its end.

One sort of line is an exception. A line that begins with a carriage return and then goes on is no
body line for the scanner, which gives up the hunk there, but the reader takes it for a blank one.
If it ends the hunk the diff is accepted, and the line shows as a context line without its text.
-/
namespace DiffReview

namespace Line

/-- The text behind the marker of a body line, without the carriage returns at its end. A blank
line has none. -/
def textBehind (line : Line) : List Char := if line.isBlank then [] else content line.tail

/-- The line begins with a carriage return and goes on behind it. -/
def isVeiled (line : Line) : Bool := line.startsWith ['\r'] && !line.isBlank

/-- The line is a note. -/
def isNote (line : Line) : Bool := line.startsWith ['\\']

/-- The line shows as the change. A veiled line shows without its text. -/
structure Shows (line : Line) (change : Change) : Prop where
  kind : line.kind? = some change.kind
  content : change.content = String.ofList (if line.isVeiled then [] else line.textBehind)

theorem isBlank_cons_of_ne {c : Char} (hc : c ≠ '\r') (text : List Char) :
    isBlank (c :: text) = false := by
  simp [isBlank, hc]

theorem isVeiled_cons_of_ne {c : Char} (hc : c ≠ '\r') (text : List Char) :
    isVeiled (c :: text) = false := by
  simp [isVeiled, startsWith, Ne.symm hc]

theorem textBehind_cons_of_ne {c : Char} (hc : c ≠ '\r') (text : List Char) :
    textBehind (c :: text) = content text := by
  simp [textBehind, isBlank_cons_of_ne hc]

/-- The item that a line with a marker is, unless it is a note. -/
theorem item_cons_of_ne {c : Char} (hc : c ≠ '\r') (text : List Char) :
    (if isVeiled (c :: text) then [] else textBehind (c :: text)) = content text := by
  rw [isVeiled_cons_of_ne hc, textBehind_cons_of_ne hc]
  rfl

/-- What a line shows that begins with a carriage return. -/
theorem item_cons_return (text : List Char) :
    (if isVeiled ('\r' :: text) then [] else textBehind ('\r' :: text)) = [] := by
  cases hb : isBlank ('\r' :: text) with
  | true => simp [isVeiled, textBehind, hb]
  | false => simp [isVeiled, startsWith, hb]

/-- A line that is read in a body can stand in one, unless it is veiled. -/
theorem isBody_or_isVeiled {line : Line} {bodyLine : BodyLine}
    (h : BodyLine.ofLine? line = some bodyLine) : line.isBody = true ∨ line.isVeiled = true := by
  cases line with
  | nil => exact .inl rfl
  | cons c text =>
    by_cases hc : c = '\r'
    · subst hc
      cases hb : isBlank ('\r' :: text) with
      | true => exact .inl (isBody_of_isBlank hb)
      | false => exact .inr (by simp [isVeiled, startsWith, hb])
    · left
      simp only [BodyLine.ofLine?, hc, if_false] at h
      split_ifs at h with h₁ h₂ h₃ h₄
      all_goals simp [isBody, *]

end Line

namespace BodyLine

/-- A line is read as a note, or as an item of its kind with the text that it shows. -/
theorem item?_of_ofLine? {line : Line} {bodyLine : BodyLine} (h : ofLine? line = some bodyLine) :
    line.isNote = true ∧ bodyLine.item? = none ∨
    line.isNote = false ∧ ∃ kind, line.kind? = some kind ∧
      bodyLine.item? = some (kind, if line.isVeiled then [] else line.textBehind) := by
  cases line with
  | nil =>
    cases h
    exact .inr ⟨rfl, .context, rfl, rfl⟩
  | cons c text =>
    simp only [ofLine?] at h
    split_ifs at h
    all_goals
      subst_vars
      cases h
    · exact .inr ⟨rfl, .added, rfl, by rw [Line.item_cons_of_ne (by decide)]; rfl⟩
    · exact .inr ⟨rfl, .removed, rfl, by rw [Line.item_cons_of_ne (by decide)]; rfl⟩
    · exact .inr ⟨rfl, .context, rfl, by rw [Line.item_cons_of_ne (by decide)]; rfl⟩
    · exact .inl ⟨rfl, rfl⟩
    · exact .inr ⟨rfl, .context, rfl, by rw [Line.item_cons_return]; rfl⟩

/-- Notes make no items. -/
theorem filterMap_item?_of_isNote {notes : List BodyLine}
    (h : ∀ line ∈ notes, line.isNote = true) : notes.filterMap item? = [] := by
  refine List.filterMap_eq_nil_iff.2 fun line hl => ?_
  have hn := h line hl
  cases line with
  | note text => rfl
  | _ => cases hn

end BodyLine

/-- The line is an item of that kind, with the text that it shows. -/
def Line.IsItem (line : Line) (item : ChangeKind × List Char) : Prop :=
  line.kind? = some item.1 ∧ item.2 = if line.isVeiled then [] else line.textBehind

namespace BodyLine

/-- The items of a body are its lines without the notes, one to one and in order. -/
theorem isItem_of_mapM {lines : List Line} {body : List BodyLine}
    (h : lines.mapM ofLine? = some body) :
    List.Forall₂ Line.IsItem (lines.filter (!Line.isNote ·)) (body.filterMap item?) := by
  induction lines generalizing body with
  | nil =>
    cases h
    exact .nil
  | cons line lines ih =>
    obtain ⟨bodyLine, rest, hl, hr, rfl⟩ := mapM_cons_eq_some h
    rcases item?_of_ofLine? hl with ⟨hn, hi⟩ | ⟨hn, kind, hk, hi⟩
    · rw [List.filter_cons_of_neg (by simp [hn]), List.filterMap_cons_none hi]
      exact ih hr
    · rw [List.filter_cons_of_pos (by simp [hn]), List.filterMap_cons_some hi]
      exact .cons ⟨hk, rfl⟩ (ih hr)

end BodyLine

namespace Patch

/-- The items of hunks are the lines from which they are made. -/
theorem isItem_of_makes {lines : List HunkLines} {hunks : List Hunk}
    (h : List.Forall₂ HunkLines.Makes lines hunks) :
    List.Forall₂ Line.IsItem ((lines.flatMap HunkLines.body).filter (!Line.isNote ·))
      ((hunks.flatMap Hunk.body).filterMap BodyLine.item?) := by
  induction h with
  | nil => exact .nil
  | cons hm _ ih =>
    obtain ⟨body, notes, hb, hl, hnotes⟩ := hm.body
    rw [List.flatMap_cons, List.flatMap_cons, List.filter_append, List.filterMap_append, hb,
      List.filterMap_append, BodyLine.filterMap_item?_of_isNote hnotes, List.append_nil]
    exact List.rel_append (BodyLine.isItem_of_mapM hl) ih

end Patch

namespace Block

/-- A file tells its block: its changes are the body lines that are no notes, one to one and in
order, each shown as one change. The added lines are told in full. -/
structure Tells (block : Block) (file : FileChange) : Prop where
  lines : ∀ line ∈ bodyLines block, line.isBody = true ∨ line.isVeiled = true
  changes : List.Forall₂ Line.Shows ((bodyLines block).filter (!Line.isNote ·)) file.changes
  added : file.added.map Change.content =
    ((bodyLines block).filter (Line.startsWith · ['+'])).map
      fun line => String.ofList (Line.content line.tail)

/-- A line of which a hunk is made can stand in a body, unless it is veiled. -/
theorem isBody_or_isVeiled_of_makes {lines : List HunkLines} {hunks : List Hunk}
    (h : List.Forall₂ HunkLines.Makes lines hunks) :
    ∀ line ∈ lines.flatMap HunkLines.body, line.isBody = true ∨ line.isVeiled = true := by
  intro line hl
  obtain ⟨made, hm, hl⟩ := List.mem_flatMap.1 hl
  obtain ⟨hunk, -, hmakes⟩ := exists_of_forall₂_of_mem h hm
  obtain ⟨body, notes, -, hbody, -⟩ := hmakes.body
  obtain ⟨bodyLine, -, hread⟩ := exists_of_forall₂_of_mem (forall₂_of_mapM_eq_some hbody) hl
  exact Line.isBody_or_isVeiled hread

/-- The added changes are the lines with the marker of an added line. -/
theorem map_content_added {lines : List Line} {file : FileChange}
    (h : List.Forall₂ Line.Shows (lines.filter (!Line.isNote ·)) file.changes) :
    file.added.map Change.content = (lines.filter (Line.startsWith · ['+'])).map
      fun line => String.ofList (Line.content line.tail) := by
  have hplus : (lines.filter (!Line.isNote ·)).filter (Line.startsWith · ['+']) =
      lines.filter (Line.startsWith · ['+']) := by
    rw [List.filter_filter]
    refine List.filter_congr fun line _ => ?_
    cases line with
    | nil => rfl
    | cons c text =>
      by_cases hc : c = '+'
      · subst hc
        rfl
      · simp [Line.startsWith, Ne.symm hc]
  have hadded : List.Forall₂ Line.Shows (lines.filter (Line.startsWith · ['+'])) file.added := by
    rw [← hplus]
    refine List.rel_filter (fun line change hs => ?_) h
    show line.startsWith ['+'] = true ↔ decide (change.kind = .added) = true
    have hkind : line.kind? = some .added ↔ line.startsWith ['+'] = true :=
      Line.kind?_eq_some_iff (by simp) line
    rw [← hkind, hs.kind, decide_eq_true_eq, Option.some_inj]
  refine (map_eq_of_forall₂ (((List.forall₂_and_left _ _).2
    ⟨fun line hl => (List.mem_filter.1 hl).2, hadded⟩).imp ?_)).symm
  rintro line change ⟨hm, hs⟩
  obtain ⟨text, rfl⟩ := Line.exists_of_startsWith hm
  rw [hs.content]
  exact congrArg String.ofList (Line.item_cons_of_ne (by decide) text).symm

/-- A block that is read as a file is told by it. -/
theorem tells_of_fileChange {block : Block} {file : FileChange}
    (h : fileChange block = .ok file) : Tells block file := by
  obtain ⟨patch, hp, hf⟩ := fileChange_eq_ok_iff.1 h
  obtain ⟨changes, hc, rfl⟩ := Option.map_eq_some_iff.1 hf
  have hmakes := Patch.makes_of_ofBlock hp
  have hitems : List.Forall₂ Line.IsItem ((bodyLines block).filter (!Line.isNote ·))
      (patch.numbered.map Numbered.item) := by
    rw [Patch.map_item_numbered]
    exact Patch.isItem_of_makes hmakes
  have hshows : List.Forall₂ Line.Shows ((bodyLines block).filter (!Line.isNote ·)) changes := by
    rw [List.forall₂_map_right_iff] at hitems
    refine (forall₂_trans hitems (forall₂_of_mapM_eq_some hc)).imp ?_
    rintro line change ⟨n, ⟨hk, ht⟩, hn⟩
    obtain ⟨hkind, hcontent, -⟩ := Numbered.change?_eq_some_iff.1 hn
    exact ⟨by rw [hk, hkind]; rfl, by rw [hcontent, ← ht]; rfl⟩
  exact ⟨isBody_or_isVeiled_of_makes hmakes, hshows, map_content_added hshows⟩

end Block

namespace ParsedDiff

/-- The changes of every file of an accepted diff are the body lines of its block without the
notes, one to one and in order, with the kind of their marker and the text behind it. Only veiled
lines lose their text, and an added line is never one. -/
theorem changes_by_line {text : String} {diff : ParsedDiff} (h : parse text = .ok diff) :
    ∃ blocks, Block.split text = .ok blocks ∧ List.Forall₂ Block.Tells blocks diff.files := by
  obtain ⟨blocks, hs, hf⟩ := parse_eq_ok_iff.1 h
  exact ⟨blocks, hs, hf.imp fun _ _ => Block.tells_of_fileChange⟩

/-- A hunk with a blank line of its own, a note, and carriage returns at the ends of lines. -/
def returned : String :=
  "--- a/f\n+++ b/f\n@@ -1,3 +1,3 @@\n\r\r\n-x\r\n\\ No newline at end of file\n+\ry\r\r\n \n"

/-- What the hunk with carriage returns says. -/
def returnedFile : FileChange :=
  ⟨"f", none, .modified, "Unknown", false, [⟨.context, "", some 1⟩, ⟨.removed, "x", some 2⟩,
    ⟨.added, "\ry", some 2⟩, ⟨.context, "", some 3⟩]⟩

/-- The hunk with carriage returns is told. -/
theorem changes_by_line_returned : parse returned = .ok ⟨[returnedFile]⟩ ∧
    ∃ blocks, Block.split returned = .ok blocks ∧
      List.Forall₂ Block.Tells blocks [returnedFile] := by
  have h : parse returned = .ok ⟨[returnedFile]⟩ := rfl
  exact ⟨h, changes_by_line h⟩

/-- A hunk of which the last line is veiled. -/
def veiled : String := "--- a/x\n+++ b/x\n@@ -1,2 +1,2 @@\n a\n\rbc\n"

/-- The block of this hunk. -/
def veiledBlock : Block :=
  ["--- a/x", "+++ b/x", "@@ -1,2 +1,2 @@", " a", "\rbc"].map String.toList

/-- The veiled line is accepted in the body, as a context line without its text. -/
theorem text_lost_of_veiled :
    Block.split veiled = .ok [veiledBlock] ∧
    parse veiled = .ok ⟨[⟨"x", none, .modified, "Unknown", false,
      [⟨.context, "a", some 1⟩, ⟨.context, "", some 2⟩]⟩]⟩ ∧
    Block.bodyLines veiledBlock = [[' ', 'a'], ['\r', 'b', 'c']] ∧
    ¬ ∀ text diff, parse text = .ok diff → ∃ blocks, Block.split text = .ok blocks ∧
      ∀ block ∈ blocks, ∀ line ∈ Block.bodyLines block, line.isBody = true := by
  have hs : Block.split veiled = .ok [veiledBlock] := rfl
  have hp : parse veiled = .ok ⟨[⟨"x", none, .modified, "Unknown", false,
      [⟨.context, "a", some 1⟩, ⟨.context, "", some 2⟩]⟩]⟩ := rfl
  have hb : Block.bodyLines veiledBlock = [[' ', 'a'], ['\r', 'b', 'c']] := rfl
  refine ⟨hs, hp, hb, fun hall => ?_⟩
  obtain ⟨blocks, hblocks, hlines⟩ := hall _ _ hp
  obtain rfl : [veiledBlock] = blocks := Except.ok.inj (hs.symm.trans hblocks)
  have hno := hlines veiledBlock (by simp) ['\r', 'b', 'c'] (by rw [hb]; simp)
  exact absurd hno (by decide)

end ParsedDiff
end DiffReview
