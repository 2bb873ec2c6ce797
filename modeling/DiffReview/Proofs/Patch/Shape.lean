import DiffReview.Proofs.Patch.Step

/-!
# Shapes of readers

What the block reader does never depends on the texts of the body lines that it has read. Without
these texts a reader is a shape. Readers of one shape read a heading alike, and they read body
lines of one kind alike; and a reader keeps the body lines in the order in which it read them.
-/
namespace DiffReview

namespace BodyLine

/-- A body line without its text. -/
def shape : BodyLine → BodyLine
  | .added _ => .added []
  | .removed _ => .removed []
  | .context _ => .context []
  | .note _ => .note []

@[simp] theorem oldWidth_shape (line : BodyLine) : line.shape.oldWidth = line.oldWidth := by
  cases line <;> rfl

@[simp] theorem newWidth_shape (line : BodyLine) : line.shape.newWidth = line.newWidth := by
  cases line <;> rfl

theorem widths_of_shape {line other : BodyLine} (h : line.shape = other.shape) :
    line.oldWidth = other.oldWidth ∧ line.newWidth = other.newWidth := by
  rw [← oldWidth_shape, h, oldWidth_shape, ← newWidth_shape line, h, newWidth_shape]
  exact ⟨rfl, rfl⟩

end BodyLine

/-- A hunk without the texts of its body lines. -/
def Hunk.shape (hunk : Hunk) : Hunk := { hunk with body := hunk.body.map BodyLine.shape }

/-- An open hunk without the texts of its body lines. -/
def OpenHunk.shape (hunk : OpenHunk) : OpenHunk :=
  { hunk with taken := hunk.taken.map BodyLine.shape }

/-- A patch without the texts of its body lines. -/
def Patch.shape (patch : Patch) : Patch := { patch with hunks := patch.hunks.map Hunk.shape }

/-- Patches of one shape have the same paths and the same mark for binary files. -/
theorem Patch.eq_of_shape {patch other : Patch} (h : patch.shape = other.shape) :
    patch.source = other.source ∧ patch.target = other.target ∧ patch.binary = other.binary := by
  obtain ⟨source, target, binary, hunks⟩ := patch
  obtain ⟨source', target', binary', hunks'⟩ := other
  simp only [shape, Patch.mk.injEq] at h
  exact ⟨h.1, h.2.1, h.2.2.1⟩

theorem Patch.hunks_shape_eq_nil_iff {patch : Patch} :
    patch.shape.hunks = [] ↔ patch.hunks = [] := by
  simp [Patch.shape]

namespace OpenHunk

@[simp] theorem isComplete_shape (hunk : OpenHunk) : hunk.shape.isComplete = hunk.isComplete := rfl

theorem shape_close (hunk : OpenHunk) : hunk.shape.close = hunk.close.shape := by
  simp [shape, close, Hunk.shape]

theorem shape_of_ofHeader {header : HunkHeader} {hunk : OpenHunk}
    (h : ofHeader header = .ok hunk) : hunk.shape = hunk := by
  obtain ⟨-, -, -, -, ht⟩ := ofHeader_eq_ok_iff.1 h
  cases hunk
  simp_all [shape]

/-- Open hunks of one shape take lines of one shape, and have one shape afterwards. -/
theorem exists_take_of_shape {hunk hunk' later : OpenHunk} {line line' : BodyLine}
    (hh : hunk'.shape = hunk.shape) (hl : line'.shape = line.shape)
    (h : hunk.take line = some later) :
    ∃ later', hunk'.take line' = some later' ∧ later'.shape = later.shape := by
  obtain ⟨old, new, oldLeft, newLeft, taken⟩ := hunk
  obtain ⟨old', new', oldLeft', newLeft', taken'⟩ := hunk'
  obtain ⟨rfl, rfl, rfl, rfl, ht⟩ : old' = old ∧ new' = new ∧ oldLeft' = oldLeft ∧
      newLeft' = newLeft ∧ taken'.map BodyLine.shape = taken.map BodyLine.shape := by
    simpa [shape] using hh
  obtain ⟨ho, hn⟩ := BodyLine.widths_of_shape hl
  unfold take at h ⊢
  rw [ho, hn]
  split at h
  · rename_i hw
    cases h
    rw [if_pos hw]
    exact ⟨_, rfl, by simp [shape, hl, ht]⟩
  · cases h

end OpenHunk

namespace PatchReader

/-- A reader without the texts of the body lines that it has read. -/
def shape (r : PatchReader) : PatchReader :=
  { r with
    finished := r.finished.map Patch.shape
    current := r.current.map Patch.shape
    hunk := r.hunk.map OpenHunk.shape }

theorem patches_shape (r : PatchReader) : r.shape.patches = r.patches.map Patch.shape := by
  cases hc : r.current <;> simp [shape, patches, hc]

theorem shape_leave (r : PatchReader) : r.leave.shape = r.shape.leave := by
  simp [leave, shape, ← patches_shape]

theorem shape_begin (r : PatchReader) (patch : Patch) :
    (r.begin patch).shape = r.shape.begin patch.shape := by
  simp [begin, shape, ← patches_shape]

theorem shape_update (r : PatchReader) (f : Patch → Patch)
    (h : ∀ patch, (f patch).shape = f patch.shape) :
    (r.update f).shape = r.shape.update f := by
  cases hc : r.current <;> simp [update, shape, hc, h]

theorem shape_readOther (r : PatchReader) : r.readOther.shape = r.shape.readOther := by
  unfold readOther
  rw [show r.shape.inHeader = r.inHeader from rfl]
  split
  · rfl
  · rw [← shape_leave]
    rfl

theorem current_shape_of_none {r : PatchReader} (h : r.current = none) :
    r.shape.current = none := by
  simp [shape, h]

theorem current_shape_of_some {r : PatchReader} {patch : Patch} (h : r.current = some patch) :
    r.shape.current = some patch.shape := by
  simp [shape, h]

theorem readBinary_of_none {r : PatchReader} (h : r.current = none) (source : List Char)
    (target : Option (List Char)) : r.readBinary source target =
      { (r.begin ⟨source, target.getD source, true, []⟩).leave with inHeader := false } := by
  simp [readBinary, h]

theorem readBinary_of_some {r : PatchReader} {patch : Patch} (h : r.current = some patch)
    (source : List Char) (target : Option (List Char)) : r.readBinary source target =
      { (r.update fun patch => { patch with binary := true }).leave with inHeader := false } := by
  simp [readBinary, h]

theorem shape_readBinary (r : PatchReader) (source : List Char) (target : Option (List Char)) :
    (r.readBinary source target).shape = r.shape.readBinary source target := by
  cases hc : r.current with
  | none =>
    have hl := shape_leave (r.begin ⟨source, target.getD source, true, []⟩)
    rw [shape_begin] at hl
    rw [readBinary_of_none hc, readBinary_of_none (current_shape_of_none hc)]
    exact congrArg (fun q => { q with inHeader := false }) hl
  | some patch =>
    have hl := shape_leave (r.update fun patch => { patch with binary := true })
    rw [shape_update r (fun patch => { patch with binary := true }) fun _ => rfl] at hl
    rw [readBinary_of_some hc, readBinary_of_some (current_shape_of_some hc)]
    exact congrArg (fun q => { q with inHeader := false }) hl

theorem isSome_current_shape (r : PatchReader) : r.shape.current.isSome = r.current.isSome := by
  simp [shape]

theorem inHeader_shape (r : PatchReader) : r.shape.inHeader = r.inHeader := rfl

theorem readTarget_shape (r : PatchReader) (line : Line) (path : List Char) :
    r.shape.readTarget line path = (r.readTarget line path).map shape := by
  cases hc : r.current with
  | some patch =>
    have ht : patch.shape.target = patch.target := rfl
    simp only [readTarget, hc, current_shape_of_some hc, ht]
    split <;> rfl
  | none =>
    cases hs : r.source with
    | none => simp [readTarget, hc, hs, shape, Except.map]
    | some source =>
      have hb := shape_begin r ⟨source, path, false, []⟩
      simp only [readTarget, hc, hs, current_shape_of_none hc,
        show r.shape.source = some source from hs]
      exact congrArg (fun q => Except.ok { q with inHeader := false, source := none }) hb.symm

/-- The shape of a reader reads a heading as the reader does. -/
theorem readHeading_shape (r : PatchReader) (line : Line) :
    r.shape.readHeading line = (r.readHeading line).map shape := by
  unfold readHeading
  generalize Heading.ofLine line = heading
  cases heading with
  | command source target =>
    have hb := shape_begin r ⟨source, target, false, []⟩
    exact congrArg (fun q => Except.ok { q with inHeader := true }) hb.symm
  | newFile =>
    have hu := shape_update r (fun patch => { patch with source := Patch.noFile }) fun _ => rfl
    dsimp only
    rw [isSome_current_shape, inHeader_shape]
    split
    · exact congrArg Except.ok hu.symm
    · rfl
  | deletedFile =>
    have hu := shape_update r (fun patch => { patch with target := Patch.noFile }) fun _ => rfl
    dsimp only
    rw [isSome_current_shape, inHeader_shape]
    split
    · exact congrArg Except.ok hu.symm
    · rfl
  | source path =>
    dsimp only
    by_cases hi : r.inHeader = true
    · rw [if_pos hi, if_pos (show r.shape.inHeader = true from hi)]
      rfl
    · rw [if_neg hi, if_neg (show ¬ r.shape.inHeader = true from hi)]
      exact congrArg (fun q => Except.ok { q with source := some path }) (shape_leave r).symm
  | target path => exact readTarget_shape r line path
  | hunk header =>
    dsimp only
    rw [isSome_current_shape]
    split
    · cases ho : OpenHunk.ofHeader header with
      | error e => rfl
      | ok hunk =>
        have hk := OpenHunk.shape_of_ofHeader ho
        simp [Except.map, shape, hk]
    · rfl
  | note =>
    cases hc : r.current with
    | none => simp [shape, hc, Except.map]
    | some patch =>
      simp only [current_shape_of_some hc,
        Patch.hunks_shape_eq_nil_iff]
      split <;> rfl
  | empty =>
    have ha : r.shape.current.any (·.hunks ≠ []) = r.current.any (·.hunks ≠ []) := by
      cases hc : r.current <;> simp [shape, hc, Patch.shape]
    dsimp only
    rw [ha, ← shape_readOther]
    split <;> rfl
  | binary source target =>
    dsimp only
    rw [← shape_readOther, ← shape_readBinary]
    rfl
  | binaryPatch =>
    dsimp only
    rw [← shape_readOther, isSome_current_shape, ← shape_readBinary]
    split <;> rfl
  | other => exact congrArg Except.ok (shape_readOther r).symm

theorem exists_readHeading_of_shape {r r' q : PatchReader} {line : Line}
    (hr : r'.shape = r.shape) (h : r.readHeading line = .ok q) :
    ∃ q', r'.readHeading line = .ok q' ∧ q'.shape = q.shape := by
  have he := readHeading_shape r' line
  rw [hr, readHeading_shape r line, h] at he
  cases hq : r'.readHeading line with
  | error e => simp [hq, Except.map] at he
  | ok q' => exact ⟨q', rfl, by simpa [hq, Except.map, eq_comm] using he⟩

theorem shape_resume (r : PatchReader) (hunk : OpenHunk) :
    (r.resume hunk).shape = r.shape.resume hunk.shape := by
  cases hc : hunk.isComplete with
  | true =>
    rw [resume_of_complete hc, resume_of_complete (by simpa using hc), OpenHunk.shape_close]
    cases hp : r.current <;> simp [shape, update, hp, Patch.shape]
  | false =>
    rw [resume_of_not_complete hc, resume_of_not_complete (by simpa using hc)]
    rfl

/-- Readers of one shape read a line alike, and read alike two lines of one shape in a hunk. -/
theorem exists_readLine_of_shape {r r' q : PatchReader} {line line' : Line}
    (hr : r'.shape = r.shape)
    (hl : line' = line ∨ r.hunk.isSome = true ∧
      (BodyLine.ofLine? line').map BodyLine.shape = (BodyLine.ofLine? line).map BodyLine.shape)
    (h : r.readLine line = .ok q) : ∃ q', r'.readLine line' = .ok q' ∧ q'.shape = q.shape := by
  have hhunk : r'.hunk.map OpenHunk.shape = r.hunk.map OpenHunk.shape := congrArg hunk hr
  rcases readLine_eq_ok_iff.1 h with ⟨hunk, hs, hb⟩ | ⟨hn, hh⟩
  · obtain ⟨bodyLine, later, hbl, hk, rfl⟩ := readBody_eq_ok_iff.1 hb
    rw [hs] at hhunk
    obtain ⟨hunk', hs', hshape⟩ := Option.map_eq_some_iff.1 hhunk
    have hline : (BodyLine.ofLine? line').map BodyLine.shape = some bodyLine.shape := by
      rcases hl with rfl | ⟨-, hl⟩
      · rw [hbl]; rfl
      · rw [hl, hbl]; rfl
    obtain ⟨bodyLine', hbl', hsl⟩ := Option.map_eq_some_iff.1 hline
    obtain ⟨later', hk', hlater⟩ := OpenHunk.exists_take_of_shape hshape hsl hk
    refine ⟨r'.resume later', ?_, by rw [shape_resume, shape_resume, hr, hlater]⟩
    exact readLine_of_take hs' hbl' hk'
  · rw [hn] at hhunk
    have hn' : r'.hunk = none := Option.map_eq_none_iff.1 hhunk
    obtain rfl : line' = line := by simpa [hn] using hl
    obtain ⟨q', hq', hshape⟩ := exists_readHeading_of_shape hr hh
    exact ⟨q', readLine_eq_ok_iff.2 (.inr ⟨hn', hq'⟩), hshape⟩

/-- Readers of one shape finish alike. -/
theorem exists_finish_of_shape {r r' : PatchReader} {patches : List Patch}
    (hr : r'.shape = r.shape) (h : r.finish = .ok patches) :
    ∃ patches', r'.finish = .ok patches' ∧ patches'.map Patch.shape = patches.map Patch.shape := by
  have hhunk : r'.hunk.map OpenHunk.shape = r.hunk.map OpenHunk.shape := congrArg hunk hr
  rcases finish_eq_ok_iff.1 h with ⟨hn, rfl⟩ | ⟨hunk, hs, hc, rfl⟩
  · rw [hn] at hhunk
    have hn' : r'.hunk = none := Option.map_eq_none_iff.1 hhunk
    refine ⟨_, finish_eq_ok_iff.2 (.inl ⟨hn', rfl⟩), ?_⟩
    rw [← patches_shape, hr, patches_shape]
  · rw [hs] at hhunk
    obtain ⟨hunk', hs', hshape⟩ := Option.map_eq_some_iff.1 hhunk
    have hc' : hunk'.isComplete = true := by
      rw [← OpenHunk.isComplete_shape, hshape]
      exact hc
    refine ⟨_, finish_eq_ok_iff.2 (.inr ⟨hunk', hs', hc', rfl⟩), ?_⟩
    rw [← patches_shape, ← patches_shape, shape_resume, shape_resume, hr, hshape]

end PatchReader
end DiffReview
