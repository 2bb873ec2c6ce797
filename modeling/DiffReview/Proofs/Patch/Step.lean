import DiffReview.Diff.Patch
import DiffReview.Proofs.Traversal

/-!
# Steps of the block reader

A line is read as a line of the hunk whose body is open, or else as a heading. What a line looks
like that is a heading, and all that a heading can do to the reader, is listed once, case by case.
The body lines are taken until nothing is lacking, and only a hunk header opens a body. Headings
never touch the hunks that have been read.
-/
namespace DiffReview

namespace Line

/-- A body line stands for as many lines as the line that it is. -/
theorem widths_of_bodyLine {line : Line} {bodyLine : BodyLine}
    (h : BodyLine.ofLine? line = some bodyLine) :
    bodyLine.oldWidth = oldWidth line ∧ bodyLine.newWidth = newWidth line := by
  cases line with
  | nil =>
    cases h
    exact ⟨rfl, rfl⟩
  | cons c text =>
    simp only [BodyLine.ofLine?] at h
    split_ifs at h
    all_goals
      subst_vars
      cases h
      exact ⟨rfl, rfl⟩

end Line

namespace HunkHeader

/-- A hunk header starts with its mark. -/
theorem startsWith_of_ofLine? {line : Line} {header : HunkHeader} (h : ofLine? line = some header) :
    Line.startsWith line ['@', '@'] = true := by
  unfold ofLine? at h
  cases hp : ['@', '@', ' ', '-'].isPrefixOf? line with
  | none => simp [hp] at h
  | some rest =>
    obtain rfl := List.isPrefixOf?_eq_some_iff_append_eq.1 hp
    rfl

/-- A hunk header is no body line. -/
theorem ofLine?_of_bodyLine {line : Line} {bodyLine : BodyLine}
    (h : BodyLine.ofLine? line = some bodyLine) : ofLine? line = none := by
  by_contra hn
  obtain ⟨header, hh⟩ := Option.ne_none_iff_exists'.1 hn
  obtain ⟨rest, rfl⟩ := Line.exists_of_startsWith (startsWith_of_ofLine? hh)
  simp [BodyLine.ofLine?] at h

end HunkHeader

namespace Heading

/-- A line that starts with the mark of a hunk is a hunk header or tells nothing. -/
theorem ofLine_of_startsWith {line : Line} (h : Line.startsWith line ['@', '@'] = true) :
    ofLine line = match HunkHeader.ofLine? line with
      | some header => .hunk header
      | none => .other := by
  obtain ⟨rest, rfl⟩ := Line.exists_of_startsWith h
  rfl

/-- What a line looks like that is read as a heading. -/
inductive Spelled : Line → Heading → Prop
  | empty : Spelled [] .empty
  | command {text old new : List Char} (h : paths? text = some (old, new)) :
      Spelled ("diff --git ".toList ++ text) (.command old new)
  | newFile {mode : List Char} (h : isMode mode = true) :
      Spelled ("new file mode ".toList ++ mode) .newFile
  | deletedFile {mode : List Char} (h : isMode mode = true) :
      Spelled ("deleted file mode ".toList ++ mode) .deletedFile
  | source (text : List Char) : Spelled (Mark.sourceMark ++ text) (.source (untilTab text))
  | target (text : List Char) : Spelled (Mark.targetMark ++ text) (.target (untilTab text))
  | hunk {line : Line} {header : HunkHeader} (h : HunkHeader.ofLine? line = some header) :
      Spelled line (.hunk header)
  | note (text : List Char) : Spelled ("\\ No newline at end of file".toList ++ text) .note
  | binaryPatch : Spelled "GIT binary patch".toList .binaryPatch
  | binary {line : Line} {old : List Char} {new : Option (List Char)}
      (h : binaryNames? line = some (old, new)) : Spelled line (.binary old new)
  | other (line : Line) : Spelled line .other

theorem spelled_ofLine (line : Line) : Spelled line (ofLine line) := by
  unfold ofLine
  by_cases he : line = []
  · rw [if_pos he, he]
    exact .empty
  rw [if_neg he]
  by_cases hcommand : line.startsWith "diff --git ".toList = true
  · obtain ⟨text, rfl⟩ := Line.exists_of_startsWith hcommand
    rw [if_pos hcommand, show ("diff --git ".toList ++ text).drop 11 = text from rfl]
    cases hp : paths? text with
    | none => exact .other _
    | some paths => exact .command hp
  rw [if_neg hcommand]
  by_cases hnew : line.startsWith "new file mode ".toList = true
  · obtain ⟨mode, rfl⟩ := Line.exists_of_startsWith hnew
    rw [if_pos hnew, show ("new file mode ".toList ++ mode).drop 14 = mode from rfl]
    by_cases hm : isMode mode = true
    · exact if_pos hm ▸ .newFile hm
    · exact if_neg hm ▸ .other _
  rw [if_neg hnew]
  by_cases hdeleted : line.startsWith "deleted file mode ".toList = true
  · obtain ⟨mode, rfl⟩ := Line.exists_of_startsWith hdeleted
    rw [if_pos hdeleted, show ("deleted file mode ".toList ++ mode).drop 18 = mode from rfl]
    by_cases hm : isMode mode = true
    · exact if_pos hm ▸ .deletedFile hm
    · exact if_neg hm ▸ .other _
  rw [if_neg hdeleted]
  by_cases hsource : line.startsWith Mark.sourceMark = true
  · obtain ⟨text, rfl⟩ := Line.exists_of_startsWith hsource
    rw [if_pos hsource]
    exact .source text
  rw [if_neg hsource]
  by_cases htarget : line.startsWith Mark.targetMark = true
  · obtain ⟨text, rfl⟩ := Line.exists_of_startsWith htarget
    rw [if_pos htarget]
    exact .target text
  rw [if_neg htarget]
  by_cases hhunk : line.startsWith ['@', '@'] = true
  · rw [if_pos hhunk]
    cases hh : HunkHeader.ofLine? line with
    | none => exact .other _
    | some header => exact .hunk hh
  rw [if_neg hhunk]
  by_cases hnote : line.startsWith "\\ No newline at end of file".toList = true
  · obtain ⟨text, rfl⟩ := Line.exists_of_startsWith hnote
    rw [if_pos hnote]
    exact .note text
  rw [if_neg hnote]
  by_cases hpatch : line = "GIT binary patch".toList
  · rw [if_pos hpatch, hpatch]
    exact .binaryPatch
  rw [if_neg hpatch]
  cases hn : binaryNames? line with
  | none => exact .other _
  | some names => exact .binary hn

/-- A heading is a hunk exactly when it is a hunk header. -/
theorem ofLine_eq_hunk_iff {line : Line} {header : HunkHeader} :
    ofLine line = .hunk header ↔ HunkHeader.ofLine? line = some header := by
  constructor
  · intro h
    cases h ▸ spelled_ofLine line with
    | hunk hh => exact hh
  · intro h
    rw [ofLine_of_startsWith (HunkHeader.startsWith_of_ofLine? h), h]

end Heading

/-- A side declares the span of which its numerals are the start and the length. -/
theorem HunkSide.span_eq_ok_iff {side : HunkSide} {span : Span} :
    side.span = .ok span ↔
      Text.numeral side.start = .ok span.start ∧ side.lengthValue = .ok span.length := by
  unfold HunkSide.span
  obtain ⟨start, length⟩ := span
  cases Text.numeral side.start <;> cases side.lengthValue <;> simp

theorem OpenHunk.isComplete_iff {hunk : OpenHunk} :
    hunk.isComplete = true ↔ hunk.oldLeft = 0 ∧ hunk.newLeft = 0 := by
  simp [isComplete]

/-- An open hunk begins with the declared lengths to come. -/
theorem OpenHunk.ofHeader_eq_ok_iff {header : HunkHeader} {hunk : OpenHunk} :
    OpenHunk.ofHeader header = .ok hunk ↔
      header.old.span = .ok hunk.old ∧ header.new.span = .ok hunk.new ∧
      hunk.oldLeft = hunk.old.length ∧ hunk.newLeft = hunk.new.length ∧ hunk.taken = [] := by
  unfold OpenHunk.ofHeader
  obtain ⟨old, new, oldLeft, newLeft, taken⟩ := hunk
  cases header.old.span with
  | error e => simp
  | ok o =>
    cases header.new.span with
    | error e => simp
    | ok n =>
      simp only [Except.ok.injEq, OpenHunk.mk.injEq]
      constructor
      · rintro ⟨rfl, rfl, rfl, rfl, rfl⟩
        exact ⟨rfl, rfl, rfl, rfl, rfl⟩
      · rintro ⟨rfl, rfl, rfl, rfl, rfl⟩
        exact ⟨rfl, rfl, rfl, rfl, rfl⟩

namespace PatchReader

/-- The hunks that have been read, of all patches. -/
def hunks (r : PatchReader) : List Hunk := r.patches.flatMap Patch.hunks

@[simp] theorem patches_leave (r : PatchReader) : r.leave.patches = r.patches := by
  simp [leave, patches]

@[simp] theorem patches_begin (r : PatchReader) (patch : Patch) :
    (r.begin patch).patches = r.patches ++ [patch] := by
  simp [begin, patches]

@[simp] theorem patches_readOther (r : PatchReader) : r.readOther.patches = r.patches := by
  unfold readOther
  split
  · rfl
  · exact patches_leave r

@[simp] theorem hunks_leave (r : PatchReader) : r.leave.hunks = r.hunks := by
  simp [hunks]

theorem hunks_begin (r : PatchReader) {patch : Patch} (h : patch.hunks = []) :
    (r.begin patch).hunks = r.hunks := by
  simp [hunks, h]

theorem hunks_update (r : PatchReader) {f : Patch → Patch}
    (h : ∀ patch, (f patch).hunks = patch.hunks) : (r.update f).hunks = r.hunks := by
  cases hc : r.current <;> simp [hunks, patches, update, hc, h]

@[simp] theorem hunks_readOther (r : PatchReader) : r.readOther.hunks = r.hunks := by
  simp [hunks]

@[simp] theorem hunk_readOther (r : PatchReader) : r.readOther.hunk = r.hunk := by
  unfold readOther
  split <;> rfl

/-- The reader after its open hunk has come that far. A hunk that lacks nothing is closed. -/
def resume (r : PatchReader) (hunk : OpenHunk) : PatchReader :=
  if hunk.isComplete then
    { r.update fun patch => { patch with hunks := patch.hunks ++ [hunk.close] } with hunk := none }
  else { r with hunk := some hunk }

theorem readBody_eq_ok_iff {r q : PatchReader} {hunk : OpenHunk} {line : Line} :
    r.readBody hunk line = .ok q ↔ ∃ bodyLine later,
      BodyLine.ofLine? line = some bodyLine ∧ hunk.take bodyLine = some later ∧
      q = r.resume later := by
  unfold readBody
  cases BodyLine.ofLine? line with
  | none => simp
  | some bodyLine =>
    cases ht : hunk.take bodyLine with
    | none => simp [ht]
    | some later =>
      simp only [ht, Option.some.injEq, exists_and_left, exists_eq_left', resume]
      split <;> simp [eq_comm]

theorem resume_of_not_complete {r : PatchReader} {hunk : OpenHunk}
    (h : hunk.isComplete = false) : r.resume hunk = { r with hunk := some hunk } := by
  simp [resume, h]

theorem resume_of_complete {r : PatchReader} {hunk : OpenHunk} (h : hunk.isComplete = true) :
    r.resume hunk = { r.update fun patch => { patch with hunks := patch.hunks ++ [hunk.close] }
      with hunk := none } := by
  simp [resume, h]

/-- A reader finishes with the patches that it has read, once an open hunk that lacks nothing is
closed. -/
theorem finish_eq_ok_iff {r : PatchReader} {patches : List Patch} :
    r.finish = .ok patches ↔ r.hunk = none ∧ patches = r.patches ∨
      ∃ hunk, r.hunk = some hunk ∧ hunk.isComplete = true ∧ patches = (r.resume hunk).patches := by
  unfold finish
  cases hh : r.hunk with
  | none =>
    simp only [Except.ok.injEq, true_and, reduceCtorEq, false_and, exists_false, or_false]
    exact eq_comm
  | some hunk =>
    simp only [reduceCtorEq, false_and, Option.some.injEq, exists_eq_left', false_or]
    cases hc : hunk.isComplete with
    | true =>
      rw [resume_of_complete hc, if_pos rfl, Except.ok.injEq, and_iff_right rfl]
      exact eq_comm
    | false => simp

/-- What a heading does to the reader. As long as the header of the current patch goes on, a mark
for binary files belongs to it; elsewhere a notice begins a patch of its own. A patch that is marked
or begun so is finished at once. -/
inductive HeadingStep (r : PatchReader) : Heading → PatchReader → Prop
  | command (old new : List Char) :
      HeadingStep r (.command old new) { r.begin ⟨old, new, false, []⟩ with inHeader := true }
  | newFile (hc : r.current.isSome = true) (hh : r.inHeader = true) :
      HeadingStep r .newFile (r.update fun patch => { patch with source := Patch.noFile })
  | deletedFile (hc : r.current.isSome = true) (hh : r.inHeader = true) :
      HeadingStep r .deletedFile (r.update fun patch => { patch with target := Patch.noFile })
  | sourceKept (path : List Char) (hh : r.inHeader = true) :
      HeadingStep r (.source path) { r with source := some path }
  | sourceLeaves (path : List Char) (hh : r.inHeader = false) :
      HeadingStep r (.source path) { r.leave with source := some path }
  | targetKept {patch : Patch} (hc : r.current = some patch) :
      HeadingStep r (.target patch.target) r
  | targetBegins {source : List Char} (path : List Char) (hc : r.current = none)
      (hs : r.source = some source) :
      HeadingStep r (.target path)
        { r.begin ⟨source, path, false, []⟩ with inHeader := false, source := none }
  | hunk {header : HunkHeader} {hunk : OpenHunk} (hc : r.current.isSome = true)
      (ho : OpenHunk.ofHeader header = .ok hunk) :
      HeadingStep r (.hunk header) { r with inHeader := false, hunk := some hunk }
  | note {patch : Patch} (hc : r.current = some patch) (hp : patch.hunks ≠ []) :
      HeadingStep r .note r
  | emptyKept (hc : r.current.any (·.hunks ≠ []) = true) : HeadingStep r .empty r
  | emptyLeaves (hc : r.current.any (·.hunks ≠ []) = false) : HeadingStep r .empty r.readOther
  | binaryMarks {patch : Patch} (source : List Char) (target : Option (List Char))
      (hc : r.current = some patch) (hh : r.inHeader = true) :
      HeadingStep r (.binary source target)
        { (r.update fun patch => { patch with binary := true }).leave with inHeader := false }
  | binaryBegins (source : List Char) (target : Option (List Char))
      (hn : r.readOther.current = none) :
      HeadingStep r (.binary source target)
        { (r.begin ⟨source, target.getD source, true, []⟩).leave with inHeader := false }
  | binaryPatch {patch : Patch} (hc : r.current = some patch) (hh : r.inHeader = true) :
      HeadingStep r .binaryPatch
        { (r.update fun patch => { patch with binary := true }).leave with inHeader := false }
  | other : HeadingStep r .other r.readOther

/-- A patch is current behind a heading that tells nothing if its header goes on. -/
theorem current_readOther_eq_some_iff {r : PatchReader} {patch : Patch} :
    r.readOther.current = some patch ↔ r.current = some patch ∧ r.inHeader = true := by
  unfold readOther
  cases r.inHeader <;> simp [leave]

theorem readOther_of_inHeader {r : PatchReader} (h : r.inHeader = true) : r.readOther = r :=
  if_pos h

/-- A notice marks the current patch as long as its header goes on. -/
theorem readBinary_readOther_of_some {r : PatchReader} {patch : Patch} (hc : r.current = some patch)
    (hh : r.inHeader = true) (source : List Char) (target : Option (List Char)) :
    r.readOther.readBinary source target =
      { (r.update fun patch => { patch with binary := true }).leave with inHeader := false } := by
  rw [readOther_of_inHeader hh, readBinary, hc]

/-- Elsewhere it begins a patch. -/
theorem readBinary_readOther_of_none {r : PatchReader} (hn : r.readOther.current = none)
    (source : List Char) (target : Option (List Char)) :
    r.readOther.readBinary source target =
      { (r.begin ⟨source, target.getD source, true, []⟩).leave with inHeader := false } := by
  have hp : r.readOther.patches = r.patches := patches_readOther r
  have hs : r.readOther.source = r.source ∧ r.readOther.hunk = r.hunk := by
    unfold readOther
    split <;> exact ⟨rfl, rfl⟩
  simp only [readBinary, hn, begin, leave, hp, hs]
  rfl

section Headings

variable {r q : PatchReader} {line : Line}

/-- What is read in the header of the current patch only, whatever it changes there. -/
theorem ite_inHeader_eq_ok_iff {changed : PatchReader} {fault : Stop BlockFault} :
    (if r.current.isSome && r.inHeader then .ok changed else .error fault : Except _ _) = .ok q ↔
      r.current.isSome = true ∧ r.inHeader = true ∧ changed = q := by
  cases r.current.isSome <;> cases r.inHeader <;> simp

/-- The mode of a file that comes or goes is read in the header of the current patch. -/
theorem readHeading_mode_iff {heading : Heading} (h : Heading.ofLine line = heading)
    (hmode : heading = .newFile ∨ heading = .deletedFile) :
    r.readHeading line = .ok q ↔ HeadingStep r heading q := by
  rcases hmode with rfl | rfl <;> simp only [readHeading, h, ite_inHeader_eq_ok_iff]
  · exact ⟨fun ⟨hc, hh, hq⟩ => hq ▸ .newFile hc hh, fun | .newFile hc hh => ⟨hc, hh, rfl⟩⟩
  · exact ⟨fun ⟨hc, hh, hq⟩ => hq ▸ .deletedFile hc hh, fun | .deletedFile hc hh => ⟨hc, hh, rfl⟩⟩

/-- A source line outside a header leaves the current patch. -/
theorem readHeading_source_iff {path : List Char} (h : Heading.ofLine line = .source path) :
    r.readHeading line = .ok q ↔ HeadingStep r (.source path) q := by
  simp only [readHeading, h, Except.ok.injEq]
  constructor
  · rintro rfl
    split
    · exact .sourceKept path ‹_›
    · exact .sourceLeaves path (Bool.eq_false_iff.2 ‹_›)
  · intro hs
    cases hs with
    | sourceKept _ hh => exact if_pos hh
    | sourceLeaves _ hh => exact if_neg (Bool.eq_false_iff.1 hh)

/-- A target line names the path that the current patch has already, or begins a patch. -/
theorem readHeading_target_iff {path : List Char} (h : Heading.ofLine line = .target path) :
    r.readHeading line = .ok q ↔ HeadingStep r (.target path) q := by
  simp only [readHeading, h, readTarget]
  constructor
  · intro ht
    split at ht
    · rename_i patch _ hc
      split at ht
      · rename_i hpath
        cases ht
        exact hpath ▸ .targetKept hc
      · cases ht
    · cases ht
    · rename_i source hc hs
      cases ht
      exact .targetBegins path hc hs
  · intro hs
    cases hs with
    | targetKept hc => simp [hc]
    | targetBegins _ hc hs => simp [hc, hs]

/-- A hunk header opens its hunk in the current patch, unless its numerals are too long. -/
theorem readHeading_hunk_iff {header : HunkHeader} (h : Heading.ofLine line = .hunk header) :
    r.readHeading line = .ok q ↔ HeadingStep r (.hunk header) q := by
  simp only [readHeading, h]
  constructor
  · intro hs
    split at hs
    · rename_i hc
      cases ho : OpenHunk.ofHeader header with
      | error e => simp [ho] at hs
      | ok hunk =>
        obtain rfl : { r with inHeader := false, hunk := some hunk } = q := by simpa [ho] using hs
        exact .hunk hc ho
    · cases hs
  · intro hs
    cases hs with
    | hunk hc ho => simp [hc, ho]

/-- A note needs a hunk before it. -/
theorem readHeading_note_iff (h : Heading.ofLine line = .note) :
    r.readHeading line = .ok q ↔ HeadingStep r .note q := by
  simp only [readHeading, h]
  constructor
  · intro hs
    cases hc : r.current with
    | none => simp [hc] at hs
    | some patch =>
      by_cases hp : patch.hunks = []
      · simp [hc, hp] at hs
      · obtain rfl : r = q := by simpa [hc, hp] using hs
        exact .note hc hp
  · intro hs
    cases hs with
    | note hc hp => simp [hc, hp]

/-- An empty line behind the hunks of a patch does nothing. -/
theorem readHeading_empty_iff (h : Heading.ofLine line = .empty) :
    r.readHeading line = .ok q ↔ HeadingStep r .empty q := by
  simp only [readHeading, h, Except.ok.injEq]
  constructor
  · rintro rfl
    split
    · exact .emptyKept ‹_›
    · exact .emptyLeaves (Bool.eq_false_iff.2 ‹_›)
  · intro hs
    cases hs with
    | emptyKept hc => exact if_pos hc
    | emptyLeaves hc => exact if_neg (Bool.eq_false_iff.1 hc)

/-- A notice marks the patch whose header goes on, or begins a patch. -/
theorem readHeading_binary_iff {source : List Char} {target : Option (List Char)}
    (h : Heading.ofLine line = .binary source target) :
    r.readHeading line = .ok q ↔ HeadingStep r (.binary source target) q := by
  simp only [readHeading, h, Except.ok.injEq]
  constructor
  · rintro rfl
    cases hc : r.readOther.current with
    | none => exact readBinary_readOther_of_none hc source target ▸ .binaryBegins source target hc
    | some patch =>
      obtain ⟨hc, hh⟩ := current_readOther_eq_some_iff.1 hc
      exact readBinary_readOther_of_some hc hh source target ▸ .binaryMarks source target hc hh
  · intro hs
    cases hs with
    | binaryMarks _ _ hc hh => exact readBinary_readOther_of_some hc hh _ _
    | binaryBegins _ _ hn => exact readBinary_readOther_of_none hn _ _

/-- A mark for a binary patch marks the patch whose header goes on, and begins none. -/
theorem readHeading_binaryPatch_iff (h : Heading.ofLine line = .binaryPatch) :
    r.readHeading line = .ok q ↔ HeadingStep r .binaryPatch q := by
  simp only [readHeading, h]
  constructor
  · intro hs
    cases hc : r.readOther.current with
    | none => simp [hc] at hs
    | some patch =>
      obtain ⟨hc', hh⟩ := current_readOther_eq_some_iff.1 hc
      rw [if_pos (Option.isSome_iff_exists.2 ⟨patch, hc⟩), Except.ok.injEq] at hs
      exact hs ▸ readBinary_readOther_of_some hc' hh [] none ▸ .binaryPatch hc' hh
  · intro hs
    cases hs with
    | binaryPatch hc hh =>
      have hcur := current_readOther_eq_some_iff.2 ⟨hc, hh⟩
      simp [hcur, readBinary_readOther_of_some hc hh]

/-- The list of cases is complete, and each case arises. -/
theorem readHeading_eq_ok_iff :
    r.readHeading line = .ok q ↔ HeadingStep r (Heading.ofLine line) q := by
  cases h : Heading.ofLine line with
  | command old new =>
    simp only [readHeading, h, Except.ok.injEq]
    exact ⟨by rintro rfl; exact .command old new, by rintro ⟨⟩; rfl⟩
  | newFile => exact readHeading_mode_iff h (.inl rfl)
  | deletedFile => exact readHeading_mode_iff h (.inr rfl)
  | source path => exact readHeading_source_iff h
  | target path => exact readHeading_target_iff h
  | hunk header => exact readHeading_hunk_iff h
  | note => exact readHeading_note_iff h
  | empty => exact readHeading_empty_iff h
  | binary source target => exact readHeading_binary_iff h
  | binaryPatch => exact readHeading_binaryPatch_iff h
  | other =>
    simp only [readHeading, h, Except.ok.injEq]
    exact ⟨by rintro rfl; exact .other, by rintro ⟨⟩; rfl⟩

end Headings

/-- A heading opens a hunk or leaves all hunks as they are. -/
theorem readHeading_hunks {r q : PatchReader} {line : Line} (h : r.readHeading line = .ok q) :
    (∃ header hunk, Heading.ofLine line = .hunk header ∧ OpenHunk.ofHeader header = .ok hunk ∧
      r.current.isSome = true ∧ q = { r with inHeader := false, hunk := some hunk }) ∨
    (∀ header, Heading.ofLine line ≠ .hunk header) ∧ q.hunk = r.hunk ∧ q.hunks = r.hunks := by
  have hs := readHeading_eq_ok_iff.1 h
  generalize Heading.ofLine line = heading at hs ⊢
  cases hs with
  | hunk hc ho => exact .inl ⟨_, _, rfl, ho, hc, rfl⟩
  | command => exact .inr ⟨by simp, rfl, hunks_begin r rfl⟩
  | newFile => exact .inr ⟨by simp, rfl, hunks_update r fun _ => rfl⟩
  | deletedFile => exact .inr ⟨by simp, rfl, hunks_update r fun _ => rfl⟩
  | sourceLeaves => exact .inr ⟨by simp, rfl, hunks_leave r⟩
  | targetBegins => exact .inr ⟨by simp, rfl, hunks_begin r rfl⟩
  | emptyLeaves => exact .inr ⟨by simp, hunk_readOther r, hunks_readOther r⟩
  | binaryMarks =>
    exact .inr ⟨by simp, rfl, (hunks_leave _).trans (hunks_update r fun _ => rfl)⟩
  | binaryBegins => exact .inr ⟨by simp, rfl, (hunks_leave _).trans (hunks_begin r rfl)⟩
  | binaryPatch =>
    exact .inr ⟨by simp, rfl, (hunks_leave _).trans (hunks_update r fun _ => rfl)⟩
  | other => exact .inr ⟨by simp, hunk_readOther r, hunks_readOther r⟩
  | _ => exact .inr ⟨by simp, rfl, rfl⟩

/-- A line is taken by the open hunk, or else it is a heading. -/
theorem readLine_eq_ok_iff {r q : PatchReader} {line : Line} :
    r.readLine line = .ok q ↔
      (∃ hunk, r.hunk = some hunk ∧ r.readBody hunk line = .ok q) ∨
      r.hunk = none ∧ r.readHeading line = .ok q := by
  unfold readLine
  cases r.hunk <;> simp

/-- An open hunk takes a body line for which it has room. -/
theorem readLine_of_take {r : PatchReader} {hunk later : OpenHunk} {line : Line}
    {bodyLine : BodyLine} (hr : r.hunk = some hunk) (hl : BodyLine.ofLine? line = some bodyLine)
    (hk : hunk.take bodyLine = some later) : r.readLine line = .ok (r.resume later) :=
  readLine_eq_ok_iff.2 (.inl ⟨hunk, hr, readBody_eq_ok_iff.2 ⟨bodyLine, later, hl, hk, rfl⟩⟩)

/-- Where a patch is current, a hunk header opens a hunk. -/
theorem readLine_of_ofHeader {r : PatchReader} {line : Line} {header : HunkHeader}
    {hunk : OpenHunk} (hl : HunkHeader.ofLine? line = some header) (hr : r.hunk = none)
    (hcur : r.current.isSome = true) (ho : OpenHunk.ofHeader header = .ok hunk) :
    r.readLine line = .ok { r with inHeader := false, hunk := some hunk } :=
  readLine_eq_ok_iff.2 (.inr ⟨hr, readHeading_eq_ok_iff.2
    ((Heading.ofLine_eq_hunk_iff.2 hl).symm ▸ .hunk hcur ho)⟩)

/-- Without an open hunk a line is read as a heading. -/
theorem headingStep_of_readLine {r q : PatchReader} {line : Line} (hr : r.hunk = none)
    (h : r.readLine line = .ok q) : r.HeadingStep (Heading.ofLine line) q := by
  rcases readLine_eq_ok_iff.1 h with ⟨hunk, hs, -⟩ | ⟨-, hread⟩
  · simp [hr] at hs
  · exact readHeading_eq_ok_iff.1 hread

/-- A line of an open hunk is a body line for which the hunk has room. -/
theorem readLine_of_hunk {r q : PatchReader} {hunk : OpenHunk} {line : Line}
    (hr : r.hunk = some hunk) (h : r.readLine line = .ok q) : ∃ bodyLine later,
      BodyLine.ofLine? line = some bodyLine ∧ hunk.take bodyLine = some later ∧
      q = r.resume later := by
  rcases readLine_eq_ok_iff.1 h with ⟨open_, ho, hb⟩ | ⟨hn, -⟩
  · obtain rfl : hunk = open_ := by simpa [hr] using ho
    exact readBody_eq_ok_iff.1 hb
  · simp [hr] at hn

/-- A hunk header is never taken by an open hunk. -/
theorem readLine_of_header {r q : PatchReader} {header : HunkHeader} {line : Line}
    (hl : HunkHeader.ofLine? line = some header) (h : r.readLine line = .ok q) :
    r.hunk = none ∧ r.current.isSome = true ∧ ∃ hunk, OpenHunk.ofHeader header = .ok hunk ∧
      q = { r with inHeader := false, hunk := some hunk } := by
  have hh := Heading.ofLine_eq_hunk_iff.2 hl
  rcases readLine_eq_ok_iff.1 h with ⟨hunk, -, hb⟩ | ⟨hn, hr⟩
  · obtain ⟨bodyLine, later, hbl, -⟩ := readBody_eq_ok_iff.1 hb
    simp [HunkHeader.ofLine?_of_bodyLine hbl] at hl
  · rcases readHeading_hunks hr with ⟨other, hunk, ho, hf, hc, rfl⟩ | ⟨hno, -⟩
    · obtain rfl : header = other := by simpa [hh] using ho
      exact ⟨hn, hc, hunk, hf, rfl⟩
    · exact absurd hh (hno header)

/-- Without an open hunk, a line that is no hunk header leaves all hunks as they are. -/
theorem readLine_of_heading {r q : PatchReader} {line : Line} (hr : r.hunk = none)
    (hl : HunkHeader.ofLine? line = none) (h : r.readLine line = .ok q) :
    q.hunk = none ∧ q.hunks = r.hunks := by
  rcases readLine_eq_ok_iff.1 h with ⟨hunk, hs, -⟩ | ⟨-, hh⟩
  · simp [hr] at hs
  · rcases readHeading_hunks hh with ⟨header, -, ho, -⟩ | ⟨-, hq, hk⟩
    · simp [Heading.ofLine_eq_hunk_iff.1 ho] at hl
    · exact ⟨hq.trans hr, hk⟩

/-- The reader takes the lines one after the other. -/
def Reads (r : PatchReader) (lines : List Line) (q : PatchReader) : Prop :=
  lines.foldlM readLine r = .ok q

@[simp] theorem reads_nil {r q : PatchReader} : r.Reads [] q ↔ r = q := by
  simp [Reads, pure, Except.pure]

theorem reads_cons {r q : PatchReader} {line : Line} {lines : List Line} :
    r.Reads (line :: lines) q ↔ ∃ m, r.readLine line = .ok m ∧ m.Reads lines q := by
  simp only [Reads, List.foldlM_cons, bind_eq_ok_iff]

theorem reads_append {r q : PatchReader} {first second : List Line} :
    r.Reads (first ++ second) q ↔ ∃ m, r.Reads first m ∧ m.Reads second q := by
  simp only [Reads, List.foldlM_append, bind_eq_ok_iff]

theorem reads_singleton {r q : PatchReader} {line : Line} :
    r.Reads [line] q ↔ r.readLine line = .ok q := by
  simp [reads_cons]

end PatchReader

namespace Patch

/-- A block is read when all its lines are taken and no hunk is left short. -/
theorem ofBlock_eq_ok_iff {block : List Line} {patches : List Patch} :
    ofBlock block = .ok patches ↔
      ∃ q, ({} : PatchReader).Reads block q ∧ q.finish = .ok patches := by
  unfold ofBlock PatchReader.Reads
  cases block.foldlM PatchReader.readLine {} <;> simp

end Patch
end DiffReview
