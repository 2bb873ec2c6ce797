import DiffReview.Proofs.Patch.Sync

/-!
# Accepted diffs

A diff is accepted when its scan is a run over all its lines and every block of the run is read as
one patch whose lines all get a number. At the end of such a run no hunk lacks lines.
-/
namespace DiffReview

namespace Block

/-- The blocks of lines are those of a run over all of them. -/
theorem ofLines_eq_ok_iff {lines : List Line} {blocks : List Block} :
    ofLines lines = .ok blocks ↔ ∃ placed t, Scan.Run {} placed none t ∧
      placed.map Prod.snd = lines ∧ blocks = ofPlaced placed := by
  constructor
  · intro h
    unfold ofLines at h
    cases hs : (Scan.ofLines lines).stop with
    | some stop => simp [hs] at h
    | none =>
      simp only [hs, Except.ok.injEq] at h
      obtain ⟨t, ht⟩ := Scan.run_of_stop_eq_none hs
      exact ⟨_, t, ht, Scan.placed_lines_of_stop_eq_none hs, h.symm⟩
  · rintro ⟨placed, t, hr, rfl, rfl⟩
    simp [ofLines, Scan.ofLines, hr.after_eq]

/-- A block describes the file change of its only patch. -/
theorem fileChange_eq_ok_iff {block : Block} {file : FileChange} :
    fileChange block = .ok file ↔
      ∃ patch, Patch.ofBlock block = .ok [patch] ∧ patch.fileChange? = some file := by
  unfold fileChange
  cases hp : Patch.ofBlock block with
  | error stop => simp
  | ok patches =>
    match patches with
    | [] => simp
    | [patch] => cases hf : patch.fileChange? <;> simp [hf]
    | _ :: _ :: _ => simp

end Block

namespace ParsedDiff

theorem parse_eq_ok_iff {text : String} {diff : ParsedDiff} :
    parse text = .ok diff ↔ ∃ blocks, Block.split text = .ok blocks ∧
      List.Forall₂ (fun block file => Block.fileChange block = .ok file) blocks diff.files := by
  unfold parse
  cases hs : Block.split text with
  | error e => simp
  | ok blocks =>
    simp only [Except.ok.injEq, exists_eq_left', ← mapM_eq_ok_iff]
    cases blocks.mapM Block.fileChange with
    | error e => simp
    | ok files => cases diff; simp

end ParsedDiff

namespace Scan

/-- After a run whose last block is read to its end, no hunk lacks lines. -/
theorem Run.exhausted {t : ScanState} {placed : List (Placement × Line)}
    (h : Run {} placed none t)
    {files : List FileChange} (hb : List.Forall₂
      (fun block file => Block.fileChange block = .ok file) (Block.ofPlaced placed) files) :
    t.Exhausted := by
  have hc : t.Coherent none := h.coherent (ScanState.coherent_initial _)
  have hx : t.leaveBody.Exhausted := ScanState.exhausted_leaveBody hc
  cases ht : t.inBody with
  | false => rwa [ScanState.leaveBody_of_not_inBody ht] at hx
  | true =>
    have hi : t.inside = true := (ScanState.inBody_iff.1 ht).1
    have htr : Block.Tracks ([] ++ placed) t := h.tracks Block.tracks_initial
    obtain ⟨earlier, he⟩ := htr.blocks hi
    have hm : Block.current placed ∈ Block.ofPlaced placed := by
      have hl := he []
      simp only [List.append_nil, List.nil_append, Block.gather_nil] at hl
      simp [hl]
    obtain ⟨file, -, hf⟩ := exists_of_forall₂_of_mem hb hm
    obtain ⟨patch, hp, -⟩ := Block.fileChange_eq_ok_iff.1 hf
    obtain ⟨q, hq, hfin⟩ := Patch.ofBlock_eq_ok_iff.1 hp
    -- The reader still has a hunk open that lacks lines, so it cannot finish.
    obtain ⟨hunk, hh, hm⟩ := h.inStep ht q hq
    simp [PatchReader.finish, hh, OpenHunk.Measures.not_isComplete hm ht] at hfin

end Scan
end DiffReview
