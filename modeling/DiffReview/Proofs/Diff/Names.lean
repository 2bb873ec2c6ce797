import DiffReview.Proofs.Diff.Notices

/-!
# Names of files

The new path of a patch is named by a heading of its block, or stands for a missing file. So no name
is empty as long as no heading gives an empty one, and then an empty file name means a deleted file
and nothing else.
-/
namespace DiffReview

/-- The names of files in a heading, without the roots of the two revisions. A name that a notice
gives alone stands for both. -/
def Heading.names : Heading → List (List Char)
  | .command old new => [Patch.stripRoot 'a' old, Patch.stripRoot 'b' new]
  | .source path => [Patch.stripRoot 'a' path]
  | .target path => [Patch.stripRoot 'b' path]
  | .binary old new => [Patch.stripRoot 'a' old, Patch.stripRoot 'b' (new.getD old)]
  | _ => []

namespace PatchReader

/-- A new path comes from the heading that is read, unless it was there or a file is deleted. -/
theorem HeadingStep.mem_targets {r q : PatchReader} {heading : Heading}
    (h : r.HeadingStep heading q) {target : List Char} (ht : target ∈ q.targets) :
    target ∈ r.targets ∨ target = Patch.noFile ∨ Patch.stripRoot 'b' target ∈ heading.names := by
  rcases h.patches_cases with ⟨hp, -⟩ | ⟨patch, hbegins, hp⟩ | ⟨f, hchanges, -, hp⟩
  · rw [targets, hp] at ht
    exact .inl ht
  · rw [targets, hp, List.map_append, List.mem_append, List.map_singleton, List.mem_singleton] at ht
    rcases ht with ht | rfl
    · exact .inl ht
    · cases hbegins <;> simp [Heading.names]
  · by_cases hd : heading = .deletedFile
    · subst hd
      cases hchanges
      rw [targets, hp] at ht
      obtain ⟨patch, hpatch, rfl⟩ := List.mem_map.1 ht
      rcases List.mem_append.1 hpatch with hpatch | hpatch
      · exact .inl (List.mem_map_of_mem (List.mem_append_left _ hpatch))
      · obtain ⟨_, -, rfl⟩ := Option.map_eq_some_iff.1 (Option.mem_toList.1 hpatch)
        exact .inr (.inl rfl)
    · rw [targets, hp] at ht
      exact .inl (targets_changes hchanges hd r ▸ ht)

/-- Every new path stands for a missing file or is named by a heading. -/
def TargetsFrom (headings : List Line) (r : PatchReader) : Prop :=
  ∀ target ∈ r.targets, target = Patch.noFile ∨
    ∃ line ∈ headings, Patch.stripRoot 'b' target ∈ (Heading.ofLine line).names

theorem TargetsFrom.headingStep {before : List Line} {r q : PatchReader} {line : Line}
    (h : TargetsFrom before r) (hs : r.HeadingStep (Heading.ofLine line) q) :
    TargetsFrom (before ++ [line]) q := by
  intro target ht
  rcases hs.mem_targets ht with ht | ht | ht
  · refine (h target ht).imp_right ?_
    rintro ⟨l, hl, hn⟩
    exact ⟨l, List.mem_append_left _ hl, hn⟩
  · exact .inl ht
  · exact .inr ⟨line, by simp, ht⟩

/-- The new paths in the end come from the headings. -/
theorem Completes.mem_targets {block : List Line} {patches : List Patch}
    (h : ({} : PatchReader).Completes block patches) {patch : Patch} (hp : patch ∈ patches) :
    patch.target = Patch.noFile ∨ ∃ line ∈ ({} : PatchReader).headings block,
      Patch.stripRoot 'b' patch.target ∈ (Heading.ofLine line).names := by
  obtain ⟨q, hq, rfl⟩ := preserves (P := TargetsFrom)
    (fun later hs _ target ht => hs target ((targets_resume _ later) ▸ ht))
    (fun hs _ hstep => hs.headingStep hstep) h []
    (by simp [TargetsFrom, targets, PatchReader.patches])
  exact hq _ (List.mem_map_of_mem hp)

end PatchReader

namespace Patch

/-- The file name is empty for a deleted file, and else it is the new name. -/
theorem filename_eq_empty_iff_of_fileChange? {patch : Patch} {file : FileChange}
    (h : patch.fileChange? = some file) (hn : stripRoot 'b' patch.target ≠ []) :
    file.filename = "" ↔ file.status = .deleted := by
  obtain ⟨changes, -, rfl⟩ := Option.map_eq_some_iff.1 h
  dsimp only
  split_ifs with hd
  · simp [hd]
  · simp [hd, String.ofList_eq_empty_iff, hn]

end Patch

namespace ParsedDiff

/-- If no heading of a diff gives an empty name, exactly the deleted files have the empty name. In
particular a file of which a notice stands alone keeps its name. -/
theorem filename_eq_empty_iff {text : String} {diff : ParsedDiff} (h : parse text = .ok diff)
    (hn : ∀ line ∈ (Scan.ofLines (Text.lines text.toList)).headings,
      ∀ name ∈ (Heading.ofLine line).names, name ≠ []) :
    (∀ file ∈ diff.files, file.filename = "" ↔ file.status = .deleted) ∧
    ∃ blocks, Block.split text = .ok blocks ∧ List.Forall₂ (fun block file =>
      ∀ line ∈ block.head?, line.isBinaryNotice = true →
        ∃ old new, Heading.ofLine line = .binary old new ∧ file.IsNoticed old new)
      blocks diff.files := by
  obtain ⟨blocks, hs, hf⟩ := parse_eq_ok_iff.1 h
  obtain ⟨placed, t, hr, hlines, rfl⟩ := Block.ofLines_eq_ok_iff.1 hs
  have hc := ScanState.coherent_initial (Scan.upcoming placed none)
  have hpairs := (List.forall₂_and_left _ _).2 ⟨fun block hb => hb, hf⟩
  refine ⟨fun file hm => ?_, _, hs, hpairs.imp ?_⟩
  · obtain ⟨block, hb, hfile⟩ := exists_of_forall₂_of_mem hf.flip hm
    obtain ⟨patch, hp, hdescribes⟩ := Block.fileChange_eq_ok_iff.1 hfile
    refine Patch.filename_eq_empty_iff_of_fileChange? hdescribes ?_
    have hcompletes := Patch.ofBlock_eq_ok_iff.1 hp
    rcases PatchReader.Completes.mem_targets hcompletes List.mem_cons_self with
      ht | ⟨line, hl, hname⟩
    · rw [ht]
      decide
    · obtain ⟨p, hp, hplaced⟩ := hr.mem_of_headings hc hb hl
      have hline := hr.mem_headings hplaced hp
      rw [hlines] at hline
      exact hn line hline _ hname
  · rintro block file ⟨hb, hfile⟩ line hl hnotice
    obtain ⟨rest, rfl⟩ : ∃ rest, block = line :: rest := by
      cases block with
      | nil => cases hl
      | cons first rest => exact ⟨rest, by simpa using hl⟩
    obtain ⟨patch, hp, hdescribes⟩ := Block.fileChange_eq_ok_iff.1 hfile
    obtain ⟨old, new, hheading, rfl⟩ := hr.eq_of_notice hc hb hnotice hp
    exact ⟨old, new, hheading, Patch.isNoticed_of_fileChange? hdescribes⟩

/-- Notices that stand alone: with one name, with two names and with a missing file. -/
def noticed : String :=
  "Binary file z.py has changed\nBinary files x and y differ\nBinary files q and /dev/null differ\n"

/-- What the notices say. -/
def noticedFiles : List FileChange :=
  [⟨"z.py", none, .modified, "Python", true, []⟩, ⟨"y", some "x", .renamed, "Unknown", true, []⟩,
   ⟨"", some "q", .deleted, "Unknown", true, []⟩]

/-- No name in the notices is empty, and only the missing file has no name. -/
theorem filename_eq_empty_iff_noticed : parse noticed = .ok ⟨noticedFiles⟩ ∧
    (∀ line ∈ (Scan.ofLines (Text.lines noticed.toList)).headings,
      ∀ name ∈ (Heading.ofLine line).names, name ≠ []) ∧
    (∀ file ∈ noticedFiles, file.filename = "" ↔ file.status = .deleted) ∧
    ∃ blocks, Block.split noticed = .ok blocks ∧ List.Forall₂ (fun block file =>
      ∀ line ∈ block.head?, line.isBinaryNotice = true →
        ∃ old new, Heading.ofLine line = .binary old new ∧ file.IsNoticed old new)
      blocks noticedFiles := by
  have h : parse noticed = .ok ⟨noticedFiles⟩ := by decide +kernel
  have hn : ∀ line ∈ (Scan.ofLines (Text.lines noticed.toList)).headings,
      ∀ name ∈ (Heading.ofLine line).names, name ≠ [] := by decide +kernel
  exact ⟨h, hn, filename_eq_empty_iff h hn⟩

end ParsedDiff
end DiffReview
