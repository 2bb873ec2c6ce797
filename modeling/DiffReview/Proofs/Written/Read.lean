import DiffReview.Proofs.Written.Changes
import DiffReview.Proofs.Written.Heading

/-!
# Reading a written entry

The block reader takes the lines of a written entry one by one and ends with the patch of the
entry: its two sides, and hunks with the numbered lines of the written ones. Notes behind the last
line of a hunk are read as headings and leave no trace.
-/
namespace DiffReview

theorem BodyLine.ofLine?_write (line : BodyLine) : ofLine? line.write = some line := by
  cases line <;> rfl

namespace PatchReader

theorem readLine_of_none {r : PatchReader} (h : r.hunk = none) (line : Line) :
    r.readLine line = r.readHeading line := by
  simp [readLine, h]

/-- A note behind a hunk is passed over. -/
theorem reads_notes {r : PatchReader} {patch : Patch} (hr : r.hunk = none)
    (hc : r.current = some patch) (hp : patch.hunks ≠ []) {notes : List BodyLine}
    (hn : ∀ line ∈ notes, line.isNote = true)
    (hm : ∀ text, .note text ∈ notes → BodyLine.noteMark <+: text) :
    r.Reads (notes.map BodyLine.write) r := by
  induction notes with
  | nil => exact reads_nil.2 rfl
  | cons line notes ih =>
    have hl := hn line List.mem_cons_self
    cases line with
    | note text =>
      have hh := Heading.ofLine_noteLine (hm text List.mem_cons_self)
      refine reads_cons.2 ⟨r, ?_, ih (fun other ho => hn other (List.mem_cons_of_mem _ ho))
        fun other ho => hm other (List.mem_cons_of_mem _ ho)⟩
      rw [readLine_of_none hr]
      simp only [readHeading, hh, hc, if_neg hp]
    | _ => cases hl

/-- The body of an open hunk is read to its end. -/
theorem reads_body {r : PatchReader} {hunk : OpenHunk} {patch : Patch} {body : List BodyLine}
    (hr : r.hunk = some hunk) (hc : r.current = some patch) (hopen : hunk.isComplete = false)
    (ho : hunk.oldLeft = BodyLine.oldLength body) (hn : hunk.newLeft = BodyLine.newLength body)
    (hm : ∀ text, .note text ∈ body → BodyLine.noteMark <+: text) :
    ∃ taken notes, body = taken ++ notes ∧ (∀ line ∈ notes, line.isNote = true) ∧
      r.Reads (body.map BodyLine.write) { r with
        current := some { patch with
          hunks := patch.hunks ++ [⟨hunk.old, hunk.new, hunk.taken.reverse ++ taken⟩] }
        hunk := none } := by
  induction body generalizing r hunk with
  | nil =>
    have hcomplete := OpenHunk.isComplete_iff.2 ⟨ho, hn⟩
    simp [hcomplete] at hopen
  | cons line body ih =>
    rw [BodyLine.oldLength_cons] at ho
    rw [BodyLine.newLength_cons] at hn
    obtain ⟨later, hlater⟩ : ∃ later : OpenHunk, later = { hunk with
      oldLeft := BodyLine.oldLength body
      newLeft := BodyLine.newLength body
      taken := line :: hunk.taken } := ⟨_, rfl⟩
    have htake : hunk.take line = some later := by
      rw [OpenHunk.take_eq_some_iff, hlater]
      exact ⟨ho, hn, rfl, rfl, rfl⟩
    have hline : r.readLine line.write = .ok (r.resume later) :=
      readLine_of_take hr (BodyLine.ofLine?_write line) htake
    have hm' : ∀ text, .note text ∈ body → BodyLine.noteMark <+: text :=
      fun text ht => hm text (List.mem_cons_of_mem _ ht)
    cases hcomplete : later.isComplete with
    | true =>
      -- Nothing but notes can come after the line that completes the hunk.
      have hzero := OpenHunk.isComplete_iff.1 hcomplete
      rw [hlater] at hzero
      have hnotes : ∀ other ∈ body, other.isNote = true :=
        fun other => BodyLine.isNote_of_measures hzero.1 hzero.2
      have hresume : r.resume later = { r with
          current := some { patch with
            hunks := patch.hunks ++ [⟨hunk.old, hunk.new, hunk.taken.reverse ++ [line]⟩] }
          hunk := none } := by
        rw [resume_of_complete hcomplete]
        simp [update, hc, hlater, OpenHunk.close]
      refine ⟨[line], body, rfl, hnotes, reads_cons.2 ⟨_, hline, ?_⟩⟩
      rw [hresume]
      exact reads_notes rfl rfl (by simp) hnotes hm'
    | false =>
      rw [resume_of_not_complete hcomplete] at hline
      obtain ⟨taken, notes, hb, hnotes, hrest⟩ := ih (r := { r with hunk := some later }) rfl hc
        hcomplete (by rw [hlater]) (by rw [hlater]) hm'
      refine ⟨line :: taken, notes, by rw [hb]; rfl, hnotes, reads_cons.2 ⟨_, hline, ?_⟩⟩
      simpa [hlater] using hrest

/-- A written hunk is read as a hunk with its numbered lines. -/
theorem reads_hunk {r : PatchReader} {patch : Patch} (hr : r.hunk = none)
    (hc : r.current = some patch) (h : WrittenHunk) :
    ∃ hunk : Hunk, hunk.numbered = h.hunk.numbered ∧ r.Reads h.lines { r with
      inHeader := false
      current := some { patch with hunks := patch.hunks ++ [hunk] } } := by
  have hheader := HunkHeader.ofLine?_write h.oldWritten h.newWritten h.title.1
  have hopen : OpenHunk.ofHeader h.header =
      .ok ⟨h.hunk.old, h.hunk.new, h.hunk.old.length, h.hunk.new.length, []⟩ := by
    rw [OpenHunk.ofHeader_eq_ok_iff]
    exact ⟨h.oldSpan, h.newSpan, rfl, rfl, rfl⟩
  have hfirst : r.readLine (h.header.write h.title.1) = .ok { r with
      inHeader := false
      hunk := some ⟨h.hunk.old, h.hunk.new, h.hunk.old.length, h.hunk.new.length, []⟩ } :=
    readLine_of_ofHeader hheader hr (Option.isSome_of_mem hc) hopen
  have hcomplete : OpenHunk.isComplete
      ⟨h.hunk.old, h.hunk.new, h.hunk.old.length, h.hunk.new.length, []⟩ = false := by
    by_contra hne
    obtain ⟨ho, hn⟩ := OpenHunk.isComplete_iff.1 (by simpa using hne)
    obtain ⟨line, hl, hnote⟩ := h.nonempty
    have hall := BodyLine.isNote_of_measures (h.oldLength.trans ho) (h.newLength.trans hn) hl
    simp [hnote] at hall
  obtain ⟨taken, notes, hb, hnotes, hrest⟩ := reads_body
    (r := { r with
      inHeader := false
      hunk := some ⟨h.hunk.old, h.hunk.new, h.hunk.old.length, h.hunk.new.length, []⟩ })
    rfl hc hcomplete h.oldLength.symm h.newLength.symm h.notes
  refine ⟨⟨h.hunk.old, h.hunk.new, taken⟩, ?_, reads_cons.2 ⟨_, hfirst, ?_⟩⟩
  · rw [Hunk.numbered, Hunk.numbered, hb, Numbered.ofBody_append,
      Numbered.ofBody_of_isNote hnotes, List.append_nil]
  · simpa [hr] using hrest

/-- Written hunks are read one after the other. -/
theorem reads_hunks {r : PatchReader} {patch : Patch} (hr : r.hunk = none)
    (hc : r.current = some patch) (hunks : List WrittenHunk) :
    ∃ (q : PatchReader) (added : List Hunk), r.Reads (hunks.flatMap WrittenHunk.lines) q ∧
      q.hunk = none ∧ q.finished = r.finished ∧
      q.current = some { patch with hunks := patch.hunks ++ added } ∧
      added.flatMap Hunk.numbered = hunks.flatMap fun h => h.hunk.numbered := by
  induction hunks generalizing r patch with
  | nil => exact ⟨r, [], reads_nil.2 rfl, hr, rfl, by simpa using hc, rfl⟩
  | cons h hunks ih =>
    obtain ⟨hunk, hnumbered, hread⟩ := reads_hunk hr hc h
    obtain ⟨q, added, hq, hqn, hqf, hqc, hadded⟩ := ih (r := { r with
      inHeader := false
      current := some { patch with hunks := patch.hunks ++ [hunk] } }) hr rfl
    refine ⟨q, hunk :: added, ?_, hqn, hqf, by simpa using hqc, ?_⟩
    · rw [List.flatMap_cons]
      exact reads_append.2 ⟨_, hread, hq⟩
    · rw [List.flatMap_cons, List.flatMap_cons, hnumbered, hadded]

/-- Behind path lines, written hunks complete the patch that is open. -/
theorem completes_hunks (old new : List Char) (inHeader : Bool) (source : Option (List Char))
    (hunks : List WrittenHunk) : ∃ added,
      Completes ⟨[], some ⟨old, new, false, []⟩, inHeader, source, none⟩
        (hunks.flatMap WrittenHunk.lines) [⟨old, new, false, added⟩] ∧
      added.flatMap Hunk.numbered = hunks.flatMap fun h => h.hunk.numbered := by
  obtain ⟨q, added, hq, hqn, hqf, hqc, hadded⟩ := reads_hunks
    (r := ⟨[], some ⟨old, new, false, []⟩, inHeader, source, none⟩) rfl rfl hunks
  exact ⟨added, ⟨q, hq, by simp [finish, hqn, patches, hqf, hqc]⟩, hadded⟩

/-- What is read before lines that complete the patches completes them too. -/
theorem Completes.append {r m : PatchReader} {first second : List Line} {patches : List Patch}
    (hr : r.Reads first m) (hm : m.Completes second patches) :
    r.Completes (first ++ second) patches := by
  obtain ⟨q, hq, hf⟩ := hm
  exact ⟨q, reads_append.2 ⟨m, hr, hq⟩, hf⟩

/-- Remarks in a header are passed over. -/
theorem reads_remarks {r : PatchReader} (hr : r.hunk = none) (hi : r.inHeader = true)
    (remarks : List RemarkLine) : r.Reads (remarks.map RemarkLine.line) r := by
  induction remarks with
  | nil => exact reads_nil.2 rfl
  | cons l remarks ih =>
    refine reads_cons.2 ⟨r, ?_, ih⟩
    rw [readLine_of_none hr]
    simp only [readHeading, Heading.ofLine_remark l, readOther, hi, if_true]

/-- The header of a command line leaves a patch between the two sides of the alteration. -/
theorem reads_header (alteration : Alteration) (header : CommandHeader) :
    ({} : PatchReader).Reads (alteration.commandLine :: header.lines alteration)
      ⟨[], some ⟨alteration.oldSide, alteration.newSide, false, []⟩, true, none, none⟩ := by
  have hcommand : ({} : PatchReader).readLine alteration.commandLine = .ok
      ⟨[], some ⟨['a', '/'] ++ alteration.oldPath.chars, ['b', '/'] ++ alteration.newPath.chars,
        false, []⟩, true, none, none⟩ := by
    rw [readLine_of_none rfl]
    simp only [readHeading, Heading.ofLine_commandLine alteration]
    rfl
  have hmode : PatchReader.Reads ⟨[], some ⟨['a', '/'] ++ alteration.oldPath.chars,
      ['b', '/'] ++ alteration.newPath.chars, false, []⟩, true, none, none⟩
      (header.modeLines alteration)
      ⟨[], some ⟨alteration.oldSide, alteration.newSide, false, []⟩, true, none, none⟩ := by
    cases alteration with
    | modified path => exact reads_nil.2 rfl
    | renamed old new ne => exact reads_nil.2 rfl
    | added path =>
      rw [CommandHeader.modeLines, reads_singleton, readLine_of_none rfl]
      simp only [readHeading, Heading.ofLine_newFile]
      rfl
    | deleted path =>
      rw [CommandHeader.modeLines, reads_singleton, readLine_of_none rfl]
      simp only [readHeading, Heading.ofLine_deletedFile]
      rfl
  refine reads_cons.2 ⟨_, hcommand, ?_⟩
  rw [CommandHeader.lines, List.append_assoc]
  refine reads_append.2 ⟨_, reads_remarks rfl rfl header.before, ?_⟩
  exact reads_append.2 ⟨_, hmode, reads_remarks rfl rfl header.after⟩

theorem tab_not_mem_oldSide (alteration : Alteration) : '\t' ∉ alteration.oldSide :=
  Alteration.not_mem_side alteration.sides_eq.1 (by decide) alteration.oldPath.noTab

theorem tab_not_mem_newSide (alteration : Alteration) : '\t' ∉ alteration.newSide :=
  Alteration.not_mem_side alteration.sides_eq.2 (by decide) alteration.newPath.noTab

/-- Path lines behind a header repeat the sides that are known. -/
theorem reads_paths_of_header {old new : List Char} (ho : '\t' ∉ old) (hn : '\t' ∉ new) :
    PatchReader.Reads ⟨[], some ⟨old, new, false, []⟩, true, none, none⟩
      [Mark.sourceMark ++ old, Mark.targetMark ++ new]
      ⟨[], some ⟨old, new, false, []⟩, true, some old, none⟩ := by
  refine reads_cons.2 ⟨⟨[], some ⟨old, new, false, []⟩, true, some old, none⟩, ?_,
    reads_singleton.2 ?_⟩
  · rw [readLine_of_none rfl]
    simp only [readHeading, Heading.ofLine_source old ho, if_true]
  · rw [readLine_of_none rfl]
    simp only [readHeading, Heading.ofLine_target new hn, readTarget, if_true]

/-- Path lines without a header begin the patch. -/
theorem reads_paths_of_nothing (alteration : Alteration) :
    ({} : PatchReader).Reads [alteration.sourceLine, alteration.targetLine]
      ⟨[], some ⟨alteration.oldSide, alteration.newSide, false, []⟩, false, none, none⟩ := by
  have hs := Heading.ofLine_source alteration.oldSide (tab_not_mem_oldSide alteration)
  have ht := Heading.ofLine_target alteration.newSide (tab_not_mem_newSide alteration)
  refine reads_cons.2 ⟨⟨[], none, false, some alteration.oldSide, none⟩, ?_, reads_singleton.2 ?_⟩
  · rw [readLine_of_none rfl]
    simp only [readHeading, Alteration.sourceLine, hs]
    rfl
  · rw [readLine_of_none rfl]
    simp only [readHeading, Alteration.targetLine, ht, readTarget]
    rfl

/-- The notice about binary files marks the patch of a header and finishes it. -/
theorem reads_binary (patch : Patch) (old new : BinaryName) :
    PatchReader.Reads ⟨[], some patch, true, none, none⟩
      ["Binary files ".toList ++ old.chars ++ " and ".toList ++ new.chars ++ " differ".toList]
      ⟨[{ patch with binary := true }], none, false, none, none⟩ := by
  obtain ⟨source, target, h⟩ := Heading.ofLine_binary old new
  rw [reads_singleton, readLine_of_none rfl]
  simp only [readHeading, h]
  rfl

end PatchReader

namespace Patch

theorem stripRoot_append (root : Char) (path : List Char) :
    stripRoot root ([root, '/'] ++ path) = path := by
  rw [stripRoot, isPrefixOf?_append]
  rfl

theorem ne_noFile (path : RelativePath) : path.chars ≠ noFile := by
  intro h
  exact path.relative (by rw [h]; rfl)

theorem stripRoot_oldSide (alteration : Alteration) (h : alteration.status ≠ .added) :
    stripRoot 'a' alteration.oldSide = alteration.oldPath.chars := by
  cases alteration with
  | added path => exact absurd rfl h
  | _ => exact stripRoot_append 'a' _

theorem stripRoot_newSide (alteration : Alteration) (h : alteration.status ≠ .deleted) :
    stripRoot 'b' alteration.newSide = alteration.newPath.chars := by
  cases alteration with
  | deleted path => exact absurd rfl h
  | _ => exact stripRoot_append 'b' _

/-- The two sides of an alteration, without their roots, have its status. -/
theorem status_sides (alteration : Alteration) :
    status (stripRoot 'a' alteration.oldSide) (stripRoot 'b' alteration.newSide) =
      alteration.status := by
  cases alteration with
  | modified path =>
    rw [stripRoot_oldSide (.modified path) (by rintro ⟨⟩),
      stripRoot_newSide (.modified path) (by rintro ⟨⟩), status, if_neg (ne_noFile _),
      if_neg (ne_noFile _)]
    exact if_neg (not_not_intro rfl)
  | added path => rfl
  | deleted path =>
    rw [stripRoot_oldSide (.deleted path) (by rintro ⟨⟩), status, if_neg (ne_noFile _)]
    rfl
  | renamed old new ne =>
    rw [stripRoot_oldSide (.renamed old new ne) (by rintro ⟨⟩),
      stripRoot_newSide (.renamed old new ne) (by rintro ⟨⟩), status, if_neg (ne_noFile _),
      if_neg (ne_noFile _)]
    exact if_pos ne

/-- The patch between the two sides of an alteration describes the altered file. -/
theorem fileChange?_sides (alteration : Alteration) (binary : Bool) {hunks : List Hunk}
    {changes : List Change}
    (h : (hunks.flatMap Hunk.numbered).mapM Numbered.change? = some changes) :
    fileChange? ⟨alteration.oldSide, alteration.newSide, binary, hunks⟩ = some {
      filename := alteration.filename
      oldFilename := alteration.oldFilename
      status := alteration.status
      language := Language.ofPath alteration.filename
      binary
      changes } := by
  rw [fileChange?]
  simp only [numbered, h, Option.map_some, status_sides]
  cases alteration with
  | modified path =>
    rw [stripRoot_newSide (.modified path) (by rintro ⟨⟩)]
    rfl
  | added path =>
    rw [stripRoot_newSide (.added path) (by rintro ⟨⟩)]
    rfl
  | deleted path =>
    rw [stripRoot_oldSide (.deleted path) (by rintro ⟨⟩)]
    rfl
  | renamed old new ne =>
    rw [stripRoot_oldSide (.renamed old new ne) (by rintro ⟨⟩),
      stripRoot_newSide (.renamed old new ne) (by rintro ⟨⟩)]
    rfl

end Patch

namespace FileEntry

/-- A written entry is read as one patch between its two sides. -/
theorem ofBlock_lines (entry : FileEntry) : ∃ hunks,
    Patch.ofBlock entry.lines =
      .ok [⟨entry.alteration.oldSide, entry.alteration.newSide, entry.isBinary, hunks⟩] ∧
    hunks.flatMap Hunk.numbered = entry.hunks.flatMap fun h => h.hunk.numbered := by
  cases entry with
  | plain alteration hunks =>
    obtain ⟨added, hcomplete, hadded⟩ := PatchReader.completes_hunks _ _ _ _ hunks
    have hread := PatchReader.Completes.append (PatchReader.reads_paths_of_nothing alteration)
      hcomplete
    exact ⟨added, Patch.ofBlock_eq_ok_iff.2 hread, hadded⟩
  | command alteration header content =>
    have hheader := PatchReader.reads_header alteration header
    cases content with
    | nothing =>
      have hlines : lines (.command alteration header .nothing) =
          alteration.commandLine :: header.lines alteration := List.append_nil _
      exact ⟨[], Patch.ofBlock_eq_ok_iff.2 ⟨_, hlines ▸ hheader, rfl⟩, rfl⟩
    | binary old new =>
      have hread := PatchReader.reads_append.2 ⟨_, hheader, PatchReader.reads_binary _ old new⟩
      exact ⟨[], Patch.ofBlock_eq_ok_iff.2 ⟨_, hread, rfl⟩, rfl⟩
    | hunks hunks =>
      obtain ⟨added, hcomplete, hadded⟩ := PatchReader.completes_hunks _ _ _ _ hunks
      have hpaths := PatchReader.reads_paths_of_header
        (PatchReader.tab_not_mem_oldSide alteration) (PatchReader.tab_not_mem_newSide alteration)
      have hread := PatchReader.Completes.append hheader (.append hpaths hcomplete)
      exact ⟨added, Patch.ofBlock_eq_ok_iff.2 hread, hadded⟩

/-- The block of a written entry describes the file change of the entry. -/
theorem fileChange_lines (entry : FileEntry) :
    Block.fileChange entry.lines = .ok entry.fileChange := by
  obtain ⟨hunks, hp, hn⟩ := ofBlock_lines entry
  have hc := WrittenHunk.mapM_flatMap_numbered entry.hunks
  rw [← hn] at hc
  exact Block.fileChange_eq_ok_iff.2 ⟨_, hp, Patch.fileChange?_sides _ _ hc⟩

end FileEntry
end DiffReview
