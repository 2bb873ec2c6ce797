import DiffReview.Proofs.Written.Place
import DiffReview.Proofs.Written.Read

/-!
# Reading back written diffs

A written diff is parsed to the file changes that its entries stand for. The scanner gives every
entry a block of its own, and the reader makes the file change of that block.
-/
namespace DiffReview

theorem newline_not_mem_of_isMode {digits : List Char} (h : Heading.isMode digits = true) :
    '\n' ∉ digits := by
  intro hm
  simp only [Heading.isMode, Bool.and_eq_true] at h
  have hd : Text.isDigit '\n' = true := List.all_eq_true.1 h.2 _ hm
  exact absurd hd (by decide)

namespace HunkSide

theorem newline_not_mem_write {side : HunkSide} (h : side.IsWritten) : '\n' ∉ side.write := by
  obtain ⟨start, length⟩ := side
  have hs := newline_not_mem_of_isMode h.1
  cases length with
  | none => simpa [write] using hs
  | some digits =>
    have hl := newline_not_mem_of_isMode (h.2 digits rfl)
    simpa [write] using ⟨hs, hl⟩

end HunkSide

namespace WrittenHunk

theorem newline_not_mem_lines (h : WrittenHunk) : ∀ line ∈ h.lines, '\n' ∉ line := by
  intro line hl
  rcases List.mem_cons.1 hl with rfl | hl
  · have ho := HunkSide.newline_not_mem_write h.oldWritten
    have hn := HunkSide.newline_not_mem_write h.newWritten
    simp [HunkHeader.write, ho, hn, h.title.2]
  · obtain ⟨bodyLine, hb, rfl⟩ := List.mem_map.1 hl
    exact h.noNewline bodyLine hb

end WrittenHunk

namespace FileEntry

theorem newline_not_mem_pathLines (alteration : Alteration) (hunks : List WrittenHunk) :
    ∀ line ∈ pathLines alteration hunks, '\n' ∉ line := by
  have ho := Alteration.not_mem_side alteration.sides_eq.1 (by decide) alteration.oldPath.noNewline
  have hn := Alteration.not_mem_side alteration.sides_eq.2 (by decide) alteration.newPath.noNewline
  intro line hl
  rw [pathLines, List.mem_cons, List.mem_cons] at hl
  rcases hl with rfl | rfl | hl
  · simp [Alteration.sourceLine, Mark.sourceMark, ho]
  · simp [Alteration.targetLine, Mark.targetMark, hn]
  · obtain ⟨h, -, hl⟩ := List.mem_flatMap.1 hl
    exact h.newline_not_mem_lines line hl

theorem newline_not_mem_commandLine (alteration : Alteration) :
    '\n' ∉ alteration.commandLine := by
  have ho := alteration.oldPath.noNewline
  have hn := alteration.newPath.noNewline
  unfold Alteration.commandLine
  simp [ho, hn]

theorem newline_not_mem_remark (l : RemarkLine) : '\n' ∉ l.line := by
  have hm : '\n' ∉ l.remark.mark := by
    cases l.remark <;> decide
  simp [RemarkLine.line, hm, l.text.2]

theorem newline_not_mem_header (header : CommandHeader) (alteration : Alteration) :
    ∀ line ∈ header.lines alteration, '\n' ∉ line := by
  have hd := newline_not_mem_of_isMode header.mode.2
  intro line hl
  rw [CommandHeader.lines, List.mem_append, List.mem_append] at hl
  rcases hl with (hl | hl) | hl
  · obtain ⟨l, -, rfl⟩ := List.mem_map.1 hl
    exact newline_not_mem_remark l
  · cases alteration with
    | modified path => simp [CommandHeader.modeLines] at hl
    | renamed old new ne => simp [CommandHeader.modeLines] at hl
    | added path =>
      obtain rfl := List.mem_singleton.1 hl
      simp [hd]
    | deleted path =>
      obtain rfl := List.mem_singleton.1 hl
      simp [hd]
  · obtain ⟨l, -, rfl⟩ := List.mem_map.1 hl
    exact newline_not_mem_remark l

theorem newline_not_mem_contentLines (alteration : Alteration) (content : Content) :
    ∀ line ∈ contentLines alteration content, '\n' ∉ line := by
  intro line hl
  cases content with
  | nothing => simp [contentLines] at hl
  | binary old new =>
    obtain rfl := List.mem_singleton.1 hl
    simp [old.noNewline, new.noNewline]
  | hunks hunks => exact newline_not_mem_pathLines alteration hunks line hl

/-- The lines of an entry are lines of its text. -/
theorem newline_not_mem_lines (entry : FileEntry) : ∀ line ∈ entry.lines, '\n' ∉ line := by
  intro line hl
  cases entry with
  | plain alteration hunks => exact newline_not_mem_pathLines alteration hunks line hl
  | command alteration header content =>
    rcases List.mem_append.1 hl with hl | hl
    · rcases List.mem_cons.1 hl with rfl | hl
      · exact newline_not_mem_commandLine alteration
      · exact newline_not_mem_header header alteration line hl
    · exact newline_not_mem_contentLines alteration content line hl

/-- The blocks of a written diff are the lines of its entries. -/
theorem split_render {entries : List FileEntry} (h : Separated entries) :
    Block.split (render entries) = .ok (entries.map lines) := by
  obtain ⟨placed, t, hrun, hlines, hgather⟩ :=
    Scan.Run.entries h (s := {}) ⟨Int.le_refl 0, Int.le_refl 0⟩ (fun _ _ _ => rfl)
  have hnewline : ∀ line ∈ entries.flatMap lines, '\n' ∉ line := by
    intro line hl
    obtain ⟨entry, -, hl⟩ := List.mem_flatMap.1 hl
    exact newline_not_mem_lines entry line hl
  refine Block.ofLines_eq_ok_iff.2 ⟨placed, t, hrun, ?_, ?_⟩
  · rw [hlines, render, String.toList_ofList, Text.lines_join _ hnewline]
  · rw [Block.ofPlaced, hgather]

end FileEntry

namespace ParsedDiff

/-- Every written diff is read back: its files are those that its entries stand for, in order, with
every change in its kind, content and number. -/
theorem parse_render {entries : List FileEntry} (h : FileEntry.Separated entries) :
    parse (FileEntry.render entries) = .ok ⟨entries.map FileEntry.fileChange⟩ := by
  refine parse_eq_ok_iff.2 ⟨_, FileEntry.split_render h, ?_⟩
  rw [List.forall₂_map_left_iff, List.forall₂_map_right_iff, List.forall₂_same]
  exact fun entry _ => FileEntry.fileChange_lines entry

/-- The path `f`. -/
def pathF : LastPath :=
  ⟨⟨['f'], by decide, by decide, by decide, by decide, by decide⟩, by decide⟩

/-- A hunk that puts lines in front of a file: its body lines look like headers, and notes stand in
it and behind it. -/
def trickyHunk : WrittenHunk where
  header := ⟨⟨['0'], some ['0']⟩, ⟨['0', '1'], some ['2']⟩⟩
  title := ⟨" @@".toList, by decide⟩
  hunk := ⟨⟨0, 0⟩, ⟨1, 2⟩, [.added "++ b/f".toList, .note BodyLine.noteMark,
    .added "diff --git a/f b/f".toList, .note BodyLine.noteMark]⟩
  oldWritten := ⟨by decide, by decide⟩
  newWritten := ⟨by decide, by decide⟩
  oldSpan := by decide
  newSpan := by decide
  oldLength := by decide
  newLength := by decide
  oldStart := by decide
  newStart := by decide
  nonempty := by decide
  noNewline := by decide
  notes := by
    intro text ht
    obtain rfl : text = BodyLine.noteMark := by simpa using ht
    exact List.prefix_rfl

/-- A deleted file without hunks, an added one, and a plain entry behind it. -/
def trickyEntries : List FileEntry :=
  [.command (.deleted pathF) ⟨[], ⟨['1'], by decide⟩, []⟩ .nothing,
    .command (.added pathF) ⟨[], ⟨['1'], by decide⟩, [⟨.index, ⟨[' ', '-'], by decide⟩⟩]⟩
      (.hunks [trickyHunk]),
    .plain (.modified pathF) [trickyHunk]]

/-- The lookalikes are read back. -/
theorem parse_render_tricky : FileEntry.Separated trickyEntries ∧
    parse (FileEntry.render trickyEntries) = .ok ⟨trickyEntries.map FileEntry.fileChange⟩ := by
  have h : FileEntry.Separated trickyEntries := by
    simp [FileEntry.Separated, trickyEntries, FileEntry.endsInHeader, FileEntry.isPlain]
  exact ⟨h, parse_render h⟩

end ParsedDiff
end DiffReview
