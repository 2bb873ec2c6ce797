import DiffReview.Proofs.Diff.LineEnds

/-!
# Mixed line ends

In a diff of a file with mixed line ends some of the body lines end in a carriage return. Wherever
they do, the diff is the same: what counts the body lines, what closes a hunk and what takes the
content of a line pass over the carriage return, and the lines around the bodies are left as they
are. The note about a missing newline counts as a body line also where it comes behind the last
counted line of its hunk.
-/
namespace DiffReview

namespace Heading

/-- A line that starts with a backslash is the same heading with a carriage return behind it. -/
theorem ofLine_note_return {line : Line} (h : line.startsWith ['\\'] = true) :
    ofLine (line ++ ['\r']) = ofLine line := by
  obtain ⟨rest, rfl⟩ := Line.exists_of_startsWith h
  exact ofLine_return (by simp) rfl

end Heading

namespace Scan

/-- Where only body lines and notes are chosen, lines that end alike are read alike. -/
theorem exists_readsAlike {chosen : Nat → Bool} {placed : List (Placement × Line)}
    {lines : List Line} (h : Text.EndAlikeAt chosen (placed.map Prod.snd) lines)
    (hc : ∀ i p, placed[i]? = some p → chosen i = true →
      p.1 = .body ∨ p.2.startsWith ['\\'] = true) :
    ∃ other, other.map Prod.snd = lines ∧ List.Forall₂ Placement.ReadsAlike placed other := by
  induction placed generalizing chosen lines with
  | nil =>
    cases h
    exact ⟨[], rfl, .nil⟩
  | cons p placed ih =>
    cases h with
    | @cons _ _ line _ _ hl hsame hrest =>
      obtain ⟨other, rfl, hother⟩ := ih hrest fun i q hq hi => hc (i + 1) q hq hi
      refine ⟨(p.1, line) :: other, rfl, .cons ⟨⟨rfl, hl⟩, fun hp => ?_⟩ hother⟩
      cases h₀ : chosen 0 with
      | false => rw [hsame h₀]
      | true =>
        rcases hc 0 p rfl h₀ with hbody | hnote
        · simp [hbody] at hp
        · rcases hl.eq with he | he
          · rw [he]
          · rw [he]
            exact Heading.ofLine_note_return hnote

end Scan

namespace ParsedDiff

/-- Carriage returns behind any of the body lines of an accepted diff leave it the same. -/
theorem parse_crlfAt {text : List Char} (ht : '\r' ∉ text) {diff : ParsedDiff}
    (h : parse (String.ofList text) = .ok diff) {chosen : Nat → Bool}
    (hc : ∀ i p, (Scan.ofLines (Text.lines text)).placed[i]? = some p → chosen i = true →
      p.1 = .body ∨ p.2.startsWith ['\\'] = true) :
    parse (String.ofList (Text.crlfAt chosen text)) = .ok diff := by
  refine parse_of_readsAlike h fun placed t hr hlines => ?_
  rw [String.toList_ofList] at hlines ⊢
  have hends := Text.endAlikeAt_lines_crlfAt ht chosen
  rw [← hlines] at hends hc
  rw [Scan.ofLines, hr.after_eq] at hc
  exact Scan.exists_readsAlike hends hc

/-- Two hunks, with a blank line in the first and one that closes the second. -/
def patchy : String :=
  "--- a/x\n+++ b/x\n@@ -1,2 +1,2 @@\n\n-a\n+b\n\\ No newline at end of file\n@@ -9 +9 @@\n\n"

/-- What the hunks say. -/
def patchyFile : FileChange :=
  ⟨"x", none, .modified, "Unknown", false, [⟨.context, "", some 1⟩, ⟨.removed, "a", some 2⟩,
    ⟨.added, "b", some 2⟩, ⟨.context, "", some 9⟩]⟩

/-- The blank lines, the added line that closes the first hunk and the note behind it. -/
def patchyLines : List Nat := [3, 5, 6, 8]

/-- With carriage returns behind these lines the hunks say the same. -/
theorem parse_crlfAt_patchy :
    String.ofList (Text.crlfAt (· ∈ patchyLines) patchy.toList) =
      "--- a/x\n+++ b/x\n@@ -1,2 +1,2 @@\n\r\n-a\n+b\r\n\\ No newline at end of file\r\n" ++
        "@@ -9 +9 @@\n\r\n" ∧
    '\r' ∉ patchy.toList ∧ parse patchy = .ok ⟨[patchyFile]⟩ ∧
    (∀ i p, (Scan.ofLines (Text.lines patchy.toList)).placed[i]? = some p →
      decide (i ∈ patchyLines) = true → p.1 = .body ∨ p.2.startsWith ['\\'] = true) ∧
    parse (String.ofList (Text.crlfAt (· ∈ patchyLines) patchy.toList)) = .ok ⟨[patchyFile]⟩ := by
  have ht : '\r' ∉ patchy.toList := by decide +kernel
  have h : parse (String.ofList patchy.toList) = .ok ⟨[patchyFile]⟩ := by decide +kernel
  have hlisted : ∀ i ∈ patchyLines,
      ∀ p ∈ (Scan.ofLines (Text.lines patchy.toList)).placed[i]?,
        p.1 = .body ∨ p.2.startsWith ['\\'] = true := by decide +kernel
  have hc : ∀ i p, (Scan.ofLines (Text.lines patchy.toList)).placed[i]? = some p →
      decide (i ∈ patchyLines) = true → p.1 = .body ∨ p.2.startsWith ['\\'] = true :=
    fun i p hp hi => hlisted i (of_decide_eq_true hi) p hp
  exact ⟨by decide +kernel, ht, by rwa [String.ofList_toList] at h, hc, parse_crlfAt ht h hc⟩

end ParsedDiff
end DiffReview
