import DiffReview.Proofs.Patch.Step

/-!
# Hunks of a block

A hunk stands in a block as its header and the lines after it, until both declared lengths are used
up. The patch of an accepted block has these hunks and no others, in order, each as long as its
header declares.
-/
namespace DiffReview

/-- A hunk as it stands in a block. -/
structure HunkLines where
  header : HunkHeader
  body : List Line

namespace Block

/-- The lines at the front of a list that use up the lengths of the two sides. -/
def fill (old new : Nat) : List Line → List Line
  | [] => []
  | line :: rest =>
    if old = 0 ∧ new = 0 then []
    else line :: fill (old - Line.oldWidth line) (new - Line.newWidth line) rest

/-- The lines after a header that use up the lengths that it declares. -/
def bodyAfter (header : HunkHeader) (rest : List Line) : List Line :=
  match header.old.lengthValue, header.new.lengthValue with
  | .ok old, .ok new => fill old new rest
  | _, _ => []

/-- The hunks of a block, in order. -/
def hunkLines : List Line → List HunkLines
  | [] => []
  | line :: rest =>
    match HunkHeader.ofLine? line with
    | some header => ⟨header, bodyAfter header rest⟩ :: hunkLines rest
    | none => hunkLines rest

@[simp] theorem fill_zero (rest : List Line) : fill 0 0 rest = [] := by
  cases rest <;> simp [fill]

theorem fill_cons {old new : Nat} (h : ¬ (old = 0 ∧ new = 0)) (line : Line) (rest : List Line) :
    fill old new (line :: rest) =
      line :: fill (old - Line.oldWidth line) (new - Line.newWidth line) rest := by
  rw [fill, if_neg h]

theorem hunkLines_of_header {line : Line} {header : HunkHeader}
    (h : HunkHeader.ofLine? line = some header) (rest : List Line) :
    hunkLines (line :: rest) = ⟨header, bodyAfter header rest⟩ :: hunkLines rest := by
  simp [hunkLines, h]

theorem hunkLines_of_none {line : Line} (h : HunkHeader.ofLine? line = none) (rest : List Line) :
    hunkLines (line :: rest) = hunkLines rest := by
  simp [hunkLines, h]

end Block

namespace BodyLine

/-- A note stands for no line of either revision. -/
def isNote : BodyLine → Bool
  | .note _ => true
  | _ => false

theorem isNote_of_widths {line : BodyLine} (ho : line.oldWidth = 0) (hn : line.newWidth = 0) :
    line.isNote = true := by
  cases line <;> simp_all [oldWidth, newWidth, isNote]

end BodyLine

/-- The lines are those of the hunk. Behind an empty hunk there may be one note more. -/
structure HunkLines.Makes (lines : HunkLines) (hunk : Hunk) : Prop where
  old : lines.header.old.span = .ok hunk.old
  new : lines.header.new.span = .ok hunk.new
  oldLength : BodyLine.oldLength hunk.body = hunk.old.length
  newLength : BodyLine.newLength hunk.body = hunk.new.length
  body : ∃ body notes, hunk.body = body ++ notes ∧ lines.body.mapM BodyLine.ofLine? = some body ∧
    ∀ line ∈ notes, line.isNote = true

namespace PatchReader

/-- What the reader says in the end about the lines that are left. -/
def Completes (r : PatchReader) (lines : List Line) (patches : List Patch) : Prop :=
  ∃ q, r.Reads lines q ∧ q.finish = .ok patches

theorem completes_nil {r : PatchReader} {patches : List Patch} :
    r.Completes [] patches ↔ r.finish = .ok patches := by
  simp [Completes]

theorem completes_cons {r : PatchReader} {line : Line} {rest : List Line} {patches : List Patch} :
    r.Completes (line :: rest) patches ↔
      ∃ m, r.readLine line = .ok m ∧ m.Completes rest patches := by
  simp only [Completes, reads_cons]
  constructor
  · rintro ⟨q, ⟨m, hm, hq⟩, hf⟩
    exact ⟨m, hm, q, hq, hf⟩
  · rintro ⟨m, hm, q, hq, hf⟩
    exact ⟨q, ⟨m, hm, hq⟩, hf⟩

theorem hunks_resume_of_complete {r : PatchReader} {hunk : OpenHunk}
    (hc : r.current.isSome = true) (h : hunk.isComplete = true) :
    (r.resume hunk).hunks = r.hunks ++ [hunk.close] := by
  obtain ⟨patch, hp⟩ := Option.isSome_iff_exists.1 hc
  simp [resume_of_complete h, hunks, patches, update, hp]

/-- Without an open hunk, the lines that are left add the hunks that stand in them. -/
def AddsHunks (lines : List Line) (r : PatchReader) (patches : List Patch) : Prop :=
  ∃ later, patches.flatMap Patch.hunks = r.hunks ++ later ∧
    List.Forall₂ HunkLines.Makes (Block.hunkLines lines) later

/-- With an open hunk, the lines that are left first use up what it lacks. -/
def FillsHunk (lines : List Line) (r : PatchReader) (hunk : OpenHunk) (patches : List Patch) :
    Prop :=
  ∃ body notes later,
    patches.flatMap Patch.hunks =
      r.hunks ++ ⟨hunk.old, hunk.new, hunk.taken.reverse ++ (body ++ notes)⟩ :: later ∧
    (Block.fill hunk.oldLeft hunk.newLeft lines).mapM BodyLine.ofLine? = some body ∧
    (∀ line ∈ notes, line.isNote = true) ∧
    hunk.oldLeft = BodyLine.oldLength (body ++ notes) ∧
    hunk.newLeft = BodyLine.newLength (body ++ notes) ∧
    List.Forall₂ HunkLines.Makes (Block.hunkLines lines) later

theorem addsHunks_nil {r : PatchReader} (hr : r.hunk = none) {patches : List Patch}
    (h : r.finish = .ok patches) : AddsHunks [] r patches := by
  simp only [finish, hr, Except.ok.injEq] at h
  subst h
  exact ⟨[], by simp [hunks], .nil⟩

theorem fillsHunk_nil {r : PatchReader} {hunk : OpenHunk} (hr : r.hunk = some hunk)
    (hc : r.current.isSome = true) {patches : List Patch} (h : r.finish = .ok patches) :
    FillsHunk [] r hunk patches := by
  simp only [finish, hr] at h
  split at h
  · rename_i hcomplete
    obtain ⟨ho, hn⟩ := OpenHunk.isComplete_iff.1 hcomplete
    obtain ⟨patch, hp⟩ := Option.isSome_iff_exists.1 hc
    cases h
    refine ⟨[], [], [], ?_, rfl, by simp, ho, hn, .nil⟩
    simp [hunks, patches, update, hp, OpenHunk.close]
  · cases h

/-- A header adds the hunk that the lines after it fill. -/
theorem addsHunks_of_header {r : PatchReader} {line : Line} {header : HunkHeader}
    {hunk : OpenHunk} {rest : List Line} {patches : List Patch}
    (hl : HunkHeader.ofLine? line = some header) (ho : OpenHunk.ofHeader header = .ok hunk)
    (h : FillsHunk rest { r with inHeader := false, hunk := some hunk } hunk patches) :
    AddsHunks (line :: rest) r patches := by
  obtain ⟨body, notes, later, hp, hb, hnotes, hol, hnl, hlater⟩ := h
  obtain ⟨hso, hsn, hleft, hright, htaken⟩ := OpenHunk.ofHeader_eq_ok_iff.1 ho
  have hlo := (HunkSide.span_eq_ok_iff.1 hso).2
  have hln := (HunkSide.span_eq_ok_iff.1 hsn).2
  refine ⟨_, hp, ?_⟩
  rw [Block.hunkLines_of_header hl]
  refine .cons ⟨hso, hsn, ?_, ?_, body, notes, ?_, ?_, hnotes⟩ hlater
  · simp [htaken, ← hol, hleft]
  · simp [htaken, ← hnl, hright]
  · simp [htaken]
  · simpa [Block.bodyAfter, hlo, hln, ← hleft, ← hright] using hb

/-- A body line that completes the hunk leaves the lines after it to the hunks that follow. -/
theorem fillsHunk_of_complete {r : PatchReader} {hunk later : OpenHunk} {line : Line}
    {bodyLine : BodyLine} {rest : List Line} {patches : List Patch}
    (hl : BodyLine.ofLine? line = some bodyLine) (hk : hunk.take bodyLine = some later)
    (hc : r.current.isSome = true) (hcomplete : later.isComplete = true)
    (h : AddsHunks rest (r.resume later) patches) : FillsHunk (line :: rest) r hunk patches := by
  obtain ⟨others, hp, hothers⟩ := h
  obtain ⟨ho, hn, htaken, hold, hnew⟩ := OpenHunk.take_eq_some_iff.1 hk
  obtain ⟨hlo, hln⟩ := OpenHunk.isComplete_iff.1 hcomplete
  obtain ⟨hwo, hwn⟩ := Line.widths_of_bodyLine hl
  rw [hunks_resume_of_complete hc hcomplete] at hp
  have hnone : HunkHeader.ofLine? line = none := HunkHeader.ofLine?_of_bodyLine hl
  rw [← Block.hunkLines_of_none hnone rest] at hothers
  by_cases hz : hunk.oldLeft = 0 ∧ hunk.newLeft = 0
  · -- Only a note can stand in an empty hunk.
    have hnote : bodyLine.isNote = true :=
      BodyLine.isNote_of_widths (by omega) (by omega)
    refine ⟨[], [bodyLine], others, ?_, ?_, by simp [hnote], ?_, ?_, hothers⟩
    · simp [hp, OpenHunk.close, htaken, hold, hnew]
    · simp [hz]
    · simp [BodyLine.oldLength]; omega
    · simp [BodyLine.newLength]; omega
  · refine ⟨[bodyLine], [], others, ?_, ?_, by simp, ?_, ?_, hothers⟩
    · simp [hp, OpenHunk.close, htaken, hold, hnew]
    · rw [Block.fill_cons hz, ← hwo, ← hwn,
        show hunk.oldLeft - bodyLine.oldWidth = 0 by omega,
        show hunk.newLeft - bodyLine.newWidth = 0 by omega]
      simp [hl]
    · simp [BodyLine.oldLength]; omega
    · simp [BodyLine.newLength]; omega

/-- A body line that does not complete the hunk leaves it that much shorter. -/
theorem fillsHunk_of_not_complete {r : PatchReader} {hunk later : OpenHunk} {line : Line}
    {bodyLine : BodyLine} {rest : List Line} {patches : List Patch}
    (hl : BodyLine.ofLine? line = some bodyLine) (hk : hunk.take bodyLine = some later)
    (hcomplete : later.isComplete = false)
    (h : FillsHunk rest (r.resume later) later patches) :
    FillsHunk (line :: rest) r hunk patches := by
  obtain ⟨body, notes, others, hp, hb, hnotes, hol, hnl, hothers⟩ := h
  obtain ⟨ho, hn, htaken, hold, hnew⟩ := OpenHunk.take_eq_some_iff.1 hk
  have hlate : ¬ (later.oldLeft = 0 ∧ later.newLeft = 0) := by
    rw [← OpenHunk.isComplete_iff, hcomplete]
    exact Bool.false_ne_true
  obtain ⟨hwo, hwn⟩ := Line.widths_of_bodyLine hl
  have hnone : HunkHeader.ofLine? line = none := HunkHeader.ofLine?_of_bodyLine hl
  rw [← Block.hunkLines_of_none hnone rest] at hothers
  rw [resume_of_not_complete hcomplete] at hp
  have hp' : patches.flatMap Patch.hunks = r.hunks ++ _ := hp
  refine ⟨bodyLine :: body, notes, others, ?_, ?_, hnotes, ?_, ?_, hothers⟩
  · simpa [htaken, hold, hnew] using hp'
  · rw [Block.fill_cons (by omega), ← hwo, ← hwn,
      show hunk.oldLeft - bodyLine.oldWidth = later.oldLeft by omega,
      show hunk.newLeft - bodyLine.newWidth = later.newLeft by omega]
    simp [hl, hb]
  · simp [ho, hol]
  · simp [hn, hnl]

/-- The lines that are left fill the open hunk, if there is one, and add the hunks that stand in
them. -/
theorem hunks_of_completes {lines : List Line} {r : PatchReader} {patches : List Patch}
    (h : r.Completes lines patches) :
    (r.hunk = none → AddsHunks lines r patches) ∧
    (∀ hunk, r.hunk = some hunk → r.current.isSome = true → FillsHunk lines r hunk patches) := by
  induction lines generalizing r with
  | nil =>
    have hf := completes_nil.1 h
    exact ⟨fun hr => addsHunks_nil hr hf, fun _ hr hc => fillsHunk_nil hr hc hf⟩
  | cons line rest ih =>
    obtain ⟨m, hm, hrest⟩ := completes_cons.1 h
    obtain ⟨ihn, ihs⟩ := ih hrest
    constructor
    · intro hr
      cases hl : HunkHeader.ofLine? line with
      | some header =>
        obtain ⟨-, hc, hunk, ho, rfl⟩ := readLine_of_header hl hm
        exact addsHunks_of_header hl ho (ihs hunk rfl hc)
      | none =>
        obtain ⟨hmh, hmk⟩ := readLine_of_heading hr hl hm
        obtain ⟨later, hp, hlater⟩ := ihn hmh
        exact ⟨later, by rw [hp, hmk], by rwa [Block.hunkLines_of_none hl]⟩
    · intro hunk hr hc
      obtain ⟨bodyLine, later, hl, hk, rfl⟩ := readLine_of_hunk hr hm
      cases hcomplete : later.isComplete with
      | true =>
        have hn : (r.resume later).hunk = none := by rw [resume_of_complete hcomplete]
        exact fillsHunk_of_complete hl hk hc hcomplete (ihn hn)
      | false =>
        have hs := resume_of_not_complete (r := r) hcomplete
        exact fillsHunk_of_not_complete hl hk hcomplete
          (ihs later (by rw [hs]) (by rw [hs]; exact hc))

end PatchReader

namespace Patch

/-- The hunks of an accepted block are those that stand in it. -/
theorem makes_of_ofBlock {block : List Line} {patch : Patch} (h : ofBlock block = .ok [patch]) :
    List.Forall₂ HunkLines.Makes (Block.hunkLines block) patch.hunks := by
  obtain ⟨later, hp, hm⟩ := (PatchReader.hunks_of_completes (ofBlock_eq_ok_iff.1 h)).1 rfl
  have he : patch.hunks = later := by simpa [PatchReader.hunks, PatchReader.patches] using hp
  rwa [he]

end Patch
end DiffReview
