import DiffReview.Proofs.Patch.Step
import DiffReview.Proofs.Scan.Blocks
import DiffReview.Diff.Parse

/-!
# The scanner and the block reader in step

The scanner measures a hunk body by the lengths of its header, and so does the reader of the block,
each with its own counters. While the scanner is in a body, the reader of the lines placed so far
has a hunk open that lacks exactly as many lines. So a block that is read to its end leaves the
scanner outside every body.
-/
namespace DiffReview
namespace OpenHunk

/-- The hunk lacks on both sides what the scanner says is lacking. -/
def Measures (hunk : OpenHunk) (s : ScanState) : Prop :=
  (hunk.oldLeft : Int) = s.oldLeft ∧ (hunk.newLeft : Int) = s.newLeft

variable {hunk later : OpenHunk} {s : ScanState} {line : Line} {bodyLine : BodyLine}

/-- A hunk that a header opens lacks the lengths with which the scanner begins to count. -/
theorem measures_of_ofHeader {header : HunkHeader} (h : ofHeader header = .ok hunk) {old new : Nat}
    (ho : header.old.lengthValue = .ok old) (hn : header.new.lengthValue = .ok new)
    (hso : s.oldLeft = old) (hsn : s.newLeft = new) : hunk.Measures s := by
  obtain ⟨hold, hnew, hleft, hright, -⟩ := ofHeader_eq_ok_iff.1 h
  have hlo := Except.ok.inj (ho.symm.trans (HunkSide.span_eq_ok_iff.1 hold).2)
  have hln := Except.ok.inj (hn.symm.trans (HunkSide.span_eq_ok_iff.1 hnew).2)
  exact ⟨by omega, by omega⟩

/-- A line that is taken counts for both. -/
theorem Measures.of_take (h : hunk.Measures s) (hl : BodyLine.ofLine? line = some bodyLine)
    (hk : hunk.take bodyLine = some later) : later.Measures (s.consume line) := by
  obtain ⟨ho, hn⟩ := h
  obtain ⟨hwo, hwn⟩ := Line.widths_of_bodyLine hl
  obtain ⟨hko, hkn, -⟩ := take_eq_some_iff.1 hk
  simp only [Measures, ScanState.consume]
  omega

theorem Measures.isComplete_iff (h : hunk.Measures s) :
    hunk.isComplete = true ↔ s.oldLeft = 0 ∧ s.newLeft = 0 := by
  obtain ⟨ho, hn⟩ := h
  rw [OpenHunk.isComplete_iff]
  omega

/-- While the scanner is in a body, the hunk lacks lines. -/
theorem Measures.not_isComplete (h : hunk.Measures s) (hs : s.inBody = true) :
    hunk.isComplete = false := by
  have hlack := (ScanState.inBody_iff.1 hs).2
  rw [← Bool.not_eq_true, h.isComplete_iff]
  omega

end OpenHunk

namespace ScanState

/-- In a body, the reader of the block has a hunk open with the same numbers of lines to come. -/
def InStep (s : ScanState) (block : List Line) : Prop :=
  s.inBody = true → ∀ r, ({} : PatchReader).Reads block r → ∃ hunk : OpenHunk,
    r.hunk = some hunk ∧ (hunk.oldLeft : Int) = s.oldLeft ∧ (hunk.newLeft : Int) = s.newLeft

theorem InStep.body {s : ScanState} {block : List Line} {line : Line} (h : s.InStep block)
    (hs : s.inBody = true) :
    (s.consume line).InStep (block ++ [line]) := by
  intro ht q hq
  obtain ⟨r, hr, hrq⟩ := PatchReader.reads_append.1 hq
  obtain ⟨hunk, hh, hm⟩ := h hs r hr
  obtain ⟨bodyLine, later, hb, hk, rfl⟩ :=
    PatchReader.readLine_of_hunk hh (PatchReader.reads_singleton.1 hrq)
  have hlater := OpenHunk.Measures.of_take hm hb hk
  exact ⟨later, by rw [PatchReader.resume_of_not_complete (hlater.not_isComplete ht)], hlater⟩

theorem InStep.outside {s t : ScanState} {block : List Line} {line : Line} {next : Option Line}
    {p : Placement} (hx : s.Exhausted) (ho : Outside s line next p t) :
    p = .continues → t.InStep (block ++ [line]) := by
  intro hp ht q hq
  have hm := ho.mark_of_inBody hx ht
  obtain ⟨r, -, hrq⟩ := PatchReader.reads_append.1 hq
  cases ho with
  | hunk _ hh _ hlo hln =>
    obtain ⟨-, -, hunk, hf, rfl⟩ :=
      PatchReader.readLine_of_header hh (PatchReader.reads_singleton.1 hrq)
    exact ⟨hunk, rfl, OpenHunk.measures_of_ofHeader hf hlo hln rfl rfl⟩
  | _ => simp_all

/-- Every step keeps the reader of the open block in step. -/
theorem InStep.place {placed : List (Placement × Line)} {s t : ScanState} {line : Line}
    {next : Option Line} {p : Placement} (h : s.InStep (Block.current placed))
    (hc : s.Coherent (some line)) (hp : s.place line next = .ok (p, t)) :
    t.InStep (Block.current (placed ++ [(p, line)])) := by
  rcases place_eq_ok_iff.1 hp with ⟨hs, -, rfl, rfl⟩ | ⟨-, ho⟩
  · rw [Block.current_append]
    exact h.body hs
  · have hx := exhausted_leaveBody hc
    by_cases hk : p = .continues
    · rw [hk, Block.current_append]
      exact InStep.outside hx ho hk
    · intro ht
      have hm := ho.mark_of_inBody hx ht
      cases ho <;> simp_all

end ScanState

namespace Scan

/-- Every run from the start keeps the reader of the open block in step. -/
theorem Run.inStep {t : ScanState} {placed : List (Placement × Line)} {next : Option Line}
    (h : Run {} placed next t) : t.InStep (Block.current placed) := by
  have hp := Run.preserves
    (P := fun placed s next => s.Coherent next ∧ s.InStep (Block.current placed))
    (fun hc hp => ⟨hc.1.place hp, hc.2.place hc.1 hp⟩) h []
    ⟨ScanState.coherent_initial _, by simp [ScanState.InStep, ScanState.inBody]⟩
  exact hp.2

end Scan
end DiffReview
