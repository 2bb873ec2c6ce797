import DiffReview.Proofs.Diff.Accepted
import DiffReview.Proofs.Patch.Headings

/-!
# Fields that agree

The fields of a file change agree with each other: the status decides which names are there and how
they stand to each other, the language is that of the name, and a binary file has no changes. For
the last the reader of a block answers. A mark for binary files belongs to the current patch only as
long as that has no hunk, and it finishes the patch, so no later hunk belongs to it.
-/
namespace DiffReview

namespace PatchReader

/-- Some patch that has been read is binary. -/
def hasBinary (r : PatchReader) : Bool := r.patches.any (·.binary)

theorem hasBinary_resume (r : PatchReader) (hunk : OpenHunk) :
    (r.resume hunk).hasBinary = r.hasBinary := by
  unfold resume
  split
  · cases hc : r.current <;> simp [hasBinary, patches, update, hc]
  · rfl

/-- A patch is binary once a heading marks it, and only then. -/
theorem HeadingStep.hasBinary {r q : PatchReader} {heading : Heading}
    (h : r.HeadingStep heading q) : q.hasBinary = (r.hasBinary || heading.isBinary) := by
  unfold PatchReader.hasBinary
  rcases h.patches_cases with ⟨hp, hno⟩ | ⟨patch, hbegins, hp⟩ | ⟨f, hchanges, hc, hp⟩
  · rw [hp, hno, Bool.or_false]
  · rw [hp, List.any_append]
    cases hbegins <;> simp [Heading.isBinary]
  · obtain ⟨patch, hc⟩ := Option.isSome_iff_exists.1 hc
    rw [hp]
    cases hchanges <;> simp [patches, update, hc, Heading.isBinary]

/-- Among the patches in the end one is binary when a heading marks it. -/
theorem Completes.any_binary {block : List Line} {patches : List Patch}
    (h : ({} : PatchReader).Completes block patches) :
    patches.any (·.binary) =
      (({} : PatchReader).headings block).any fun line => (Heading.ofLine line).isBinary := by
  obtain ⟨q, hq, rfl⟩ := preserves
    (P := fun before q => q.hasBinary = before.any fun line => (Heading.ofLine line).isBinary)
    (fun later hs _ => (hasBinary_resume _ later).trans hs)
    (fun hs _ hstep => by simp [hstep.hasBinary, hs]) h [] rfl
  exact hq

/-- No patch has both hunks and the mark for binary files. The current patch bears no mark, and as
long as its header goes on it has no hunks and no hunk is open. -/
structure Unmixed (r : PatchReader) : Prop where
  finished : ∀ patch ∈ r.finished, patch.binary = true → patch.hunks = []
  current : ∀ patch ∈ r.current, patch.binary = false
  header : r.inHeader = true → r.hunk = none ∧ ∀ patch ∈ r.current, patch.hunks = []

namespace Unmixed

variable {r q : PatchReader}

theorem patches (h : r.Unmixed) : ∀ patch ∈ r.patches, patch.binary = true → patch.hunks = [] := by
  intro patch hp hb
  rcases List.mem_append.1 hp with hp | hp
  · exact h.finished patch hp hb
  · have hn := h.current patch (Option.mem_toList.1 hp)
    simp [hb] at hn

/-- Where the patches read so far are finished, the one that is begun bears no mark. -/
theorem begin (h : r.Unmixed) (hn : r.hunk = none) (source target : List Char) (inHeader : Bool)
    (path : Option (List Char)) : Unmixed
      { r.begin ⟨source, target, false, []⟩ with inHeader := inHeader, source := path } where
  finished := h.patches
  current := by simp [PatchReader.begin]
  header _ := ⟨hn, by simp [PatchReader.begin]⟩

theorem leave (h : r.Unmixed) (hn : r.hunk = none) (inHeader : Bool)
    (path : Option (List Char)) :
    Unmixed { r.leave with inHeader := inHeader, source := path } where
  finished := h.patches
  current := by simp [PatchReader.leave]
  header _ := ⟨hn, by simp [PatchReader.leave]⟩

theorem readOther (h : r.Unmixed) (hn : r.hunk = none) : r.readOther.Unmixed := by
  unfold PatchReader.readOther
  split
  · exact h
  · exact h.leave hn true r.source

/-- The paths of a patch have no part in this. -/
theorem update (h : r.Unmixed) {f : Patch → Patch}
    (hf : ∀ patch, (f patch).binary = patch.binary ∧ (f patch).hunks = patch.hunks) :
    (r.update f).Unmixed where
  finished := h.finished
  current := by
    rintro _ hp
    obtain ⟨patch, hc, rfl⟩ := Option.map_eq_some_iff.1 hp
    rw [(hf patch).1, h.current patch hc]
  header hh := by
    refine ⟨(h.header hh).1, ?_⟩
    rintro _ hp
    obtain ⟨patch, hc, rfl⟩ := Option.map_eq_some_iff.1 hp
    rw [(hf patch).2, (h.header hh).2 patch hc]

/-- The mark is set in a header, where the patch has no hunks. -/
theorem mark (h : r.Unmixed) (hh : r.inHeader = true) : Unmixed
    { (r.update fun patch => { patch with binary := true }).leave with inHeader := false } where
  finished := by
    intro patch hp hb
    rcases List.mem_append.1 hp with hp | hp
    · exact h.finished patch hp hb
    · obtain ⟨patch, hc, rfl⟩ := Option.map_eq_some_iff.1 (Option.mem_toList.1 hp)
      exact (h.header hh).2 patch hc
  current := by simp [PatchReader.leave]
  header := by simp

theorem headingStep (h : r.Unmixed) (hn : r.hunk = none) {heading : Heading}
    (hs : r.HeadingStep heading q) : q.Unmixed := by
  cases hs with
  | command => exact h.begin hn _ _ true r.source
  | newFile => exact h.update fun _ => ⟨rfl, rfl⟩
  | deletedFile => exact h.update fun _ => ⟨rfl, rfl⟩
  | sourceKept => exact ⟨h.finished, h.current, h.header⟩
  | sourceLeaves => exact h.leave hn r.inHeader _
  | targetBegins => exact h.begin hn _ _ false none
  | hunk => exact ⟨h.finished, h.current, by simp⟩
  | emptyLeaves => exact h.readOther hn
  | binaryMarks _ _ _ hh => exact h.mark hh
  | binaryBegins source target =>
    refine ⟨fun patch hp hb => ?_, by simp [PatchReader.leave], by simp⟩
    rcases List.mem_append.1 hp with hp | hp
    · exact h.patches patch hp hb
    · obtain rfl : patch = _ := by simpa [PatchReader.begin] using hp
      rfl
  | binaryPatch _ hh => exact h.mark hh
  | other => exact h.readOther hn
  | _ => exact h

/-- A hunk is open only behind the header, where no mark is set any more. -/
theorem resume (h : r.Unmixed) {hunk : OpenHunk} (hs : r.hunk = some hunk) (later : OpenHunk) :
    (r.resume later).Unmixed := by
  have hh : r.inHeader = false := by
    by_contra hh
    have hn := (h.header (by simpa using hh)).1
    simp [hs] at hn
  unfold PatchReader.resume
  split
  · refine ⟨h.finished, ?_, by simp [PatchReader.update, hh]⟩
    rintro _ hp
    obtain ⟨patch, hc, rfl⟩ := Option.map_eq_some_iff.1 hp
    exact h.current patch hc
  · exact ⟨h.finished, h.current, by simp [hh]⟩

end Unmixed

/-- No patch of a block has both hunks and the mark for binary files. -/
theorem Completes.unmixed {block : List Line} {patches : List Patch}
    (h : ({} : PatchReader).Completes block patches) :
    ∀ patch ∈ patches, patch.binary = true → patch.hunks = [] := by
  obtain ⟨q, hq, rfl⟩ := preserves (P := fun _ q => q.Unmixed)
    (fun later hs hh => hs.resume hh later) (fun hs hn hstep => hs.headingStep hn hstep) h []
    ⟨by simp, by simp, by simp⟩
  exact hq.patches

end PatchReader

/-- The fields of a file change agree with each other. -/
structure FileChange.Consistent (file : FileChange) : Prop where
  /-- A deleted file has no name but its old one. -/
  deleted : file.status = .deleted → file.filename = "" ∧ file.language = Language.unknown ∧
    ∃ old, file.oldFilename = some old ∧ old ≠ "/dev/null"
  /-- A renamed file has two names, and both are names of files. -/
  renamed : file.status = .renamed → file.filename ≠ "/dev/null" ∧
    ∃ old, file.oldFilename = some old ∧ old ≠ file.filename ∧ old ≠ "/dev/null"
  sameName : file.status = .added ∨ file.status = .modified → file.oldFilename = none
  language : file.language = Language.ofPath file.filename
  binary : file.binary = true → file.changes = [] ∧ file.additions = 0 ∧ file.deletions = 0

namespace Patch

theorem status_eq_deleted_iff {old new : List Char} :
    status old new = .deleted ↔ old ≠ noFile ∧ new = noFile := by
  unfold status
  split_ifs <;> simp_all

theorem status_eq_renamed_iff {old new : List Char} :
    status old new = .renamed ↔ old ≠ noFile ∧ new ≠ noFile ∧ old ≠ new := by
  unfold status
  split_ifs <;> simp_all

theorem ofList_ne_noFile {path : List Char} (h : path ≠ noFile) :
    String.ofList path ≠ "/dev/null" := by
  intro he
  have hl := congrArg String.toList he
  rw [String.toList_ofList] at hl
  exact h hl

/-- A patch that does not mix hunks with the mark for binary files describes a consistent change. -/
theorem consistent_of_fileChange? {patch : Patch} {file : FileChange}
    (h : patch.fileChange? = some file) (hb : patch.binary = true → patch.hunks = []) :
    file.Consistent := by
  obtain ⟨changes, hc, rfl⟩ := Option.map_eq_some_iff.1 h
  refine ⟨fun hs => ?_, fun hs => ?_, fun hs => ?_, rfl, fun hbinary => ?_⟩
  · obtain ⟨hold, -⟩ := status_eq_deleted_iff.1 hs
    dsimp only at hs ⊢
    simp only [hs, if_true, true_or]
    exact ⟨trivial, by decide, _, rfl, ofList_ne_noFile hold⟩
  · obtain ⟨hold, hnew, hne⟩ := status_eq_renamed_iff.1 hs
    dsimp only at hs ⊢
    simp only [hs, reduceCtorEq, if_false, false_or, if_true]
    refine ⟨ofList_ne_noFile hnew, _, rfl, fun he => hne ?_, ofList_ne_noFile hold⟩
    simpa using congrArg String.toList he
  · dsimp only at hs ⊢
    rcases hs with hs | hs <;> simp [hs]
  · obtain rfl : changes = [] := by simpa [numbered, hb hbinary, eq_comm] using hc
    exact ⟨rfl, rfl, rfl⟩

end Patch

namespace Block

/-- Without hunks no line of a block is a hunk header. -/
theorem ofLine?_of_hunkLines_eq_nil {block : List Line} (h : hunkLines block = []) :
    ∀ line ∈ block, HunkHeader.ofLine? line = none := by
  induction block with
  | nil => simp
  | cons line rest ih =>
    cases hl : HunkHeader.ofLine? line with
    | some header => simp [hunkLines_of_header hl] at h
    | none =>
      rw [hunkLines_of_none hl] at h
      exact List.forall_mem_cons.2 ⟨hl, ih h⟩

end Block

namespace ParsedDiff

/-- Every file of an accepted diff is consistent. It is binary when a heading of its block marks it,
in whatever order the headings come, and then no line of the block is a hunk header. -/
theorem files_consistent {text : String} {diff : ParsedDiff} (h : parse text = .ok diff) :
    (∀ file ∈ diff.files, file.Consistent) ∧
    ∃ blocks, Block.split text = .ok blocks ∧ List.Forall₂ (fun block file =>
      (file.binary = true ↔
        ∃ line ∈ ({} : PatchReader).headings block, (Heading.ofLine line).isBinary = true) ∧
      (file.binary = true → ∀ line ∈ block, HunkHeader.ofLine? line = none)) blocks diff.files := by
  obtain ⟨blocks, hs, hf⟩ := parse_eq_ok_iff.1 h
  refine ⟨fun file hm => ?_, blocks, hs, hf.imp fun block file hfile => ?_⟩
  · obtain ⟨block, -, hfile⟩ := exists_of_forall₂_of_mem hf.flip hm
    obtain ⟨patch, hp, hdescribes⟩ := Block.fileChange_eq_ok_iff.1 hfile
    have hunmixed := PatchReader.Completes.unmixed (Patch.ofBlock_eq_ok_iff.1 hp)
    exact Patch.consistent_of_fileChange? hdescribes (hunmixed patch List.mem_cons_self)
  · obtain ⟨patch, hp, hdescribes⟩ := Block.fileChange_eq_ok_iff.1 hfile
    obtain ⟨changes, -, rfl⟩ := Option.map_eq_some_iff.1 hdescribes
    have hcompletes := Patch.ofBlock_eq_ok_iff.1 hp
    refine ⟨?_, fun hb => ?_⟩
    · have hany := PatchReader.Completes.any_binary hcompletes
      rw [List.any_cons, List.any_nil, Bool.or_false] at hany
      rw [hany, List.any_eq_true]
    · have hnone := PatchReader.Completes.unmixed hcompletes patch List.mem_cons_self hb
      have hmakes := Patch.makes_of_ofBlock hp
      rw [hnone, List.forall₂_nil_right_iff] at hmakes
      exact Block.ofLine?_of_hunkLines_eq_nil hmakes

/-- A deletion, a notice about two binary files with a line behind it that tells nothing, and a
rename with a mark for binary files in its header. -/
def mixed : String :=
  "--- a/o\n+++ /dev/null\n@@ -1 +0,0 @@\n-a\nBinary files u and u differ\nOnly w\n" ++
  "diff --git a/x b/y.c\nGIT binary patch\n"

/-- What the entries of the mixed diff say. -/
def mixedFiles : List FileChange :=
  [⟨"", some "o", .deleted, "Unknown", false, [⟨.removed, "a", some 1⟩]⟩,
   ⟨"u", none, .modified, "Unknown", true, []⟩, ⟨"y.c", some "x", .renamed, "C", true, []⟩]

/-- The mixed diff is accepted with these files, of which two are binary and have no changes. -/
theorem files_consistent_mixed : parse mixed = .ok ⟨mixedFiles⟩ ∧
    (∀ file ∈ mixedFiles, file.Consistent) ∧
    ∃ blocks, Block.split mixed = .ok blocks ∧ List.Forall₂ (fun block file =>
      (file.binary = true ↔
        ∃ line ∈ ({} : PatchReader).headings block, (Heading.ofLine line).isBinary = true) ∧
      (file.binary = true → ∀ line ∈ block, HunkHeader.ofLine? line = none)) blocks mixedFiles := by
  have h : parse mixed = .ok ⟨mixedFiles⟩ := by decide +kernel
  exact ⟨h, files_consistent h⟩

end ParsedDiff
end DiffReview
