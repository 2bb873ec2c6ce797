import DiffReview.Proofs.Wire.Written
import Mathlib.Algebra.GroupWithZero.Nat

/-!
# Totals in written forms

The written form of a diff gives numbers that follow from the rest of it: how many lines each file
adds and removes, and how many files and lines there are in all. A value tallies when these are
what its own parts add up to. Written forms tally, and the order of fields has no part in it.
-/

namespace DiffReview

open Json

namespace Contract

/-- The number of changes of a kind in the written form of a file. -/
def changesOf (kind : ChangeKind) (file : Json) : Nat :=
  (file.items "changes").countP fun change => change.get? "kind" = some (.str kind.name)

/-- The written form of a file gives the counts of its own changes. -/
structure TalliesFile (file : Json) : Prop where
  additions : file.get? "additions" = some (.nat (changesOf .added file))
  deletions : file.get? "deletions" = some (.nat (changesOf .removed file))

instance (file : Json) : Decidable (TalliesFile file) :=
  decidable_of_iff (file.get? "additions" = some (.nat (changesOf .added file)) ∧
      file.get? "deletions" = some (.nat (changesOf .removed file)))
    ⟨fun h => ⟨h.1, h.2⟩, fun h => ⟨h.additions, h.deletions⟩⟩

/-- What the summary in the written form of a diff gives under a name. -/
def total? (diff : Json) (name : String) : Option Json :=
  (diff.get? "summary").bind fun summary => summary.get? name

/-- The files and the summary in the written form of a diff give the counts of their changes. -/
structure TalliesDiff (diff : Json) : Prop where
  files : ∀ file ∈ diff.items "files", TalliesFile file
  totalFiles : total? diff "totalFiles" = some (.nat (diff.items "files").length)
  totalAdditions : total? diff "totalAdditions" =
    some (.nat ((diff.items "files").map (changesOf .added)).sum)
  totalDeletions : total? diff "totalDeletions" =
    some (.nat ((diff.items "files").map (changesOf .removed)).sum)

instance (diff : Json) : Decidable (TalliesDiff diff) :=
  decidable_of_iff ((∀ file ∈ diff.items "files", TalliesFile file) ∧
      total? diff "totalFiles" = some (.nat (diff.items "files").length) ∧
      total? diff "totalAdditions" =
        some (.nat ((diff.items "files").map (changesOf .added)).sum) ∧
      total? diff "totalDeletions" =
        some (.nat ((diff.items "files").map (changesOf .removed)).sum))
    ⟨fun h => ⟨h.1, h.2.1, h.2.2.1, h.2.2.2⟩,
      fun h => ⟨h.files, h.totalFiles, h.totalAdditions, h.totalDeletions⟩⟩

/-- The diff in the written form of a review gives the counts of its changes. -/
def TalliesReview (review : Json) : Prop :=
  ∃ diff, review.get? "diff" = some diff ∧ TalliesDiff diff

section Alike

variable {v w : Json}

theorem changesOf_eq (kind : ChangeKind)
    (h : List.Forall₂ Alike (v.items "changes") (w.items "changes")) :
    changesOf kind v = changesOf kind w := by
  unfold changesOf
  generalize v.items "changes" = vs at h ⊢
  generalize w.items "changes" = ws at h ⊢
  induction h with
  | nil => rfl
  | cons hvw _ ih =>
    simp only [List.countP_cons, ih, hvw.get?_eq_some_iff "kind" (s := .str kind.name) rfl]

theorem changesOf_of_alike (h : v.Alike w) (kind : ChangeKind) :
    changesOf kind v = changesOf kind w := changesOf_eq kind (h.items "changes")

theorem TalliesFile.of_alike (h : v.Alike w) (hw : TalliesFile w) : TalliesFile v where
  additions := by
    rw [changesOf_of_alike h]
    exact (h.get?_eq_some_iff _ rfl).2 hw.additions
  deletions := by
    rw [changesOf_of_alike h]
    exact (h.get?_eq_some_iff _ rfl).2 hw.deletions

theorem total?_of_alike (h : v.Alike w) {name : String} {n : Nat}
    (hw : total? w name = some (.nat n)) : total? v name = some (.nat n) := by
  obtain ⟨summary, hsummary, hn⟩ := Option.bind_eq_some_iff.1 hw
  obtain ⟨summary', hsummary', hs⟩ := h.exists_get? hsummary
  exact Option.bind_eq_some_iff.2 ⟨summary', hsummary', (hs.get?_eq_some_iff _ rfl).2 hn⟩

theorem TalliesDiff.of_alike (h : v.Alike w) (hw : TalliesDiff w) : TalliesDiff v := by
  have hitems := h.items "files"
  have hcounts : ∀ kind, (v.items "files").map (changesOf kind) =
      (w.items "files").map (changesOf kind) := fun kind =>
    map_eq_of_forall₂ (hitems.imp fun _ _ hf => changesOf_of_alike hf kind)
  constructor
  · intro file hfile
    obtain ⟨file', hfile', hf⟩ := exists_of_forall₂_of_mem hitems hfile
    exact .of_alike hf (hw.files file' hfile')
  · rw [hitems.length_eq]
    exact total?_of_alike h hw.totalFiles
  · rw [hcounts]
    exact total?_of_alike h hw.totalAdditions
  · rw [hcounts]
    exact total?_of_alike h hw.totalDeletions

theorem TalliesReview.of_alike (h : v.Alike w) (hw : TalliesReview w) : TalliesReview v := by
  obtain ⟨diff, hdiff, ht⟩ := hw
  obtain ⟨diff', hdiff', hd⟩ := h.exists_get? hdiff
  exact ⟨diff', hdiff', .of_alike hd ht⟩

end Alike

section Written

@[simp] theorem changesOf_toJson (kind : ChangeKind) (file : FileChange) :
    changesOf kind file.toJson = file.count kind := by
  have hname : ∀ k : ChangeKind, k.name = kind.name ↔ k = kind := fun k => by
    cases k <;> cases kind <;> simp [ChangeKind.name]
  simp [changesOf, items, FileChange.toJson, FileChange.count, List.countP_map, Function.comp_def,
    Change.toJson, hname]

theorem TalliesFile.toJson (file : FileChange) : TalliesFile file.toJson := by
  constructor
  · rw [changesOf_toJson]
    simp [FileChange.toJson, FileChange.additions]
  · rw [changesOf_toJson]
    simp [FileChange.toJson, FileChange.deletions]

theorem TalliesDiff.toJson (diff : ParsedDiff) : TalliesDiff diff.toJson := by
  have hitems : diff.toJson.items "files" = diff.files.map FileChange.toJson := by
    simp [items, ParsedDiff.toJson]
  have hcounts : ∀ kind, (diff.toJson.items "files").map (changesOf kind) =
      diff.files.map fun file => file.count kind := fun kind => by
    simp [hitems, Function.comp_def]
  constructor
  · simp [hitems, TalliesFile.toJson]
  · rw [hitems]
    simp [total?, ParsedDiff.toJson, Summary.toJson, ParsedDiff.summary]
  · rw [hcounts]
    rfl
  · rw [hcounts]
    rfl

theorem TalliesReview.toJson (review : Review) : TalliesReview review.toJson :=
  ⟨review.diff.toJson, by simp [Review.toJson], .toJson review.diff⟩

end Written

end Contract
end DiffReview
