import DiffReview.Proofs.Diff.Content
import DiffReview.Proofs.Written.Entry
import Mathlib.Data.List.Induction

/-!
# Changes of a written hunk

The single pass over a body gives each line the number that its place in the hunk asks for: that of
the first line of its revision, and one more for each line of that revision before it.
-/
namespace DiffReview

namespace BodyLine

/-- A body measures nothing exactly when it holds nothing but notes. -/
theorem isNote_of_measures {body : List BodyLine} (ho : oldLength body = 0)
    (hn : newLength body = 0) {line : BodyLine} (h : line ∈ body) : line.isNote = true := by
  induction body with
  | nil => simp at h
  | cons first body ih =>
    rw [oldLength_cons] at ho
    rw [newLength_cons] at hn
    rcases List.mem_cons.1 h with rfl | h
    · exact isNote_of_widths (by omega) (by omega)
    · exact ih (by omega) (by omega) h

end BodyLine

namespace Hunk

/-- The changes of a hunk with one more line. -/
theorem changes_append (old new : Span) (front : List BodyLine) (line : BodyLine) :
    changes ⟨old, new, front ++ [line]⟩ =
      changes ⟨old, new, front⟩ ++ (change? ⟨old, new, front⟩ front line).toList := by
  have hfront : (List.range front.length).filterMap (fun i =>
      (front ++ [line])[i]?.bind (change? ⟨old, new, front⟩ ((front ++ [line]).take i))) =
      changes ⟨old, new, front⟩ := by
    refine List.filterMap_congr fun i hi => ?_
    have hlt : i < front.length := List.mem_range.1 hi
    rw [List.getElem?_append_left hlt, List.take_append_of_le_length (Nat.le_of_lt hlt)]
  have hlast : (front ++ [line])[front.length]? = some line := by simp
  calc changes ⟨old, new, front ++ [line]⟩
      = (List.range (front.length + 1)).filterMap (fun i =>
          (front ++ [line])[i]?.bind (change? ⟨old, new, front⟩ ((front ++ [line]).take i))) := by
        rw [changes, List.length_append]
        rfl
    _ = changes ⟨old, new, front⟩ ++ (change? ⟨old, new, front⟩ front line).toList := by
        rw [List.range_succ, List.filterMap_append, hfront]
        congr 1
        simp only [List.filterMap_cons, List.filterMap_nil, hlast, Option.bind_some, List.take_left]
        cases change? ⟨old, new, front⟩ front line <;> rfl

/-- One more line is numbered from where the lines before it end. -/
theorem mapM_ofBody_singleton {old new : Span} {front : List BodyLine} {line : BodyLine}
    (ho : line.oldWidth ≠ 0 → 1 ≤ old.start) (hn : line.newWidth ≠ 0 → 1 ≤ new.start) :
    (Numbered.ofBody (old.start + BodyLine.oldLength front)
        (new.start + BodyLine.newLength front) [line]).mapM Numbered.change? =
      some (change? ⟨old, new, front⟩ front line).toList := by
  cases line with
  | note text => rfl
  | added text =>
    have hs := hn (by simp [BodyLine.newWidth])
    have hp : 0 < new.start + BodyLine.newLength front := by omega
    simp [Numbered.ofBody, Numbered.change?, change?, lineNumber?, hp]
  | removed text =>
    have hs := ho (by simp [BodyLine.oldWidth])
    have hp : 0 < old.start + BodyLine.oldLength front := by omega
    simp [Numbered.ofBody, Numbered.change?, change?, lineNumber?, hp]
  | context text =>
    have hs := ho (by simp [BodyLine.oldWidth])
    have hp : 0 < old.start + BodyLine.oldLength front := by omega
    simp [Numbered.ofBody, Numbered.change?, change?, lineNumber?, hp]

/-- The numbered lines of a hunk are its changes, when each side that has lines starts at a line. -/
theorem mapM_numbered {old new : Span} {body : List BodyLine}
    (ho : BodyLine.oldLength body ≠ 0 → 1 ≤ old.start)
    (hn : BodyLine.newLength body ≠ 0 → 1 ≤ new.start) :
    (numbered ⟨old, new, body⟩).mapM Numbered.change? = some (changes ⟨old, new, body⟩) := by
  induction body using List.reverseRecOn with
  | nil => rfl
  | append_singleton front line ih =>
    have hol := BodyLine.oldLength_append front [line]
    have hnl := BodyLine.newLength_append front [line]
    rw [BodyLine.oldLength_cons] at hol
    rw [BodyLine.newLength_cons] at hnl
    have hfront := ih (fun h => ho (by omega)) (fun h => hn (by omega))
    have hline := @mapM_ofBody_singleton old new front line (fun h => ho (by omega))
      (fun h => hn (by omega))
    rw [numbered] at hfront ⊢
    rw [Numbered.ofBody_append, List.mapM_append, hfront, hline, changes_append]
    rfl

end Hunk

namespace WrittenHunk

/-- The numbered lines of a written hunk are its changes. -/
theorem mapM_numbered (h : WrittenHunk) :
    h.hunk.numbered.mapM Numbered.change? = some h.hunk.changes := by
  have ho := h.oldStart
  have hn := h.newStart
  rw [← h.oldLength] at ho
  rw [← h.newLength] at hn
  exact Hunk.mapM_numbered ho hn

theorem mapM_flatMap_numbered (hunks : List WrittenHunk) :
    (hunks.flatMap fun h => h.hunk.numbered).mapM Numbered.change? =
      some (hunks.flatMap fun h => h.hunk.changes) := by
  induction hunks with
  | nil => rfl
  | cons h hunks ih =>
    rw [List.flatMap_cons, List.mapM_append, mapM_numbered h, ih]
    rfl

end WrittenHunk
end DiffReview
