import DiffReview.Proofs.Diff.Accepted
import DiffReview.Proofs.Patch.Bodies

/-!
# Lines outside hunk bodies

Once a block has had a hunk, the scanner accepts no line outside a hunk body that starts like a
body line. So an accepted hunk has no line more than its header declares: what looks like one would
be left over outside all bodies.
-/
namespace DiffReview

/-- The markers of body lines that are changes. -/
def Line.markers : List Char := ['+', '-', ' ']

/-- The line starts with the marker of a change. -/
def Line.isMarked (line : Line) : Bool := line.head?.any (· ∈ Line.markers)

/-- The length that a side declares; zero if its numeral is too long. -/
def HunkSide.declared (side : HunkSide) : Nat :=
  match side.lengthValue with
  | .ok length => length
  | .error _ => 0

namespace Block

/-- The lines outside hunk bodies, when a hunk still lacks so many lines on the two sides. -/
def between (old new : Nat) : List Line → List Line
  | [] => []
  | line :: rest =>
    if old = 0 ∧ new = 0 then
      match HunkHeader.ofLine? line with
      | some header => between header.old.declared header.new.declared rest
      | none => line :: between 0 0 rest
    else between (old - Line.oldWidth line) (new - Line.newWidth line) rest

/-- The lines outside hunk bodies after the first hunk header. -/
def loose : List Line → List Line
  | [] => []
  | line :: rest =>
    match HunkHeader.ofLine? line with
    | some header => between header.old.declared header.new.declared rest
    | none => loose rest

end Block

namespace PatchReader

/-- The numbers of lines that the open hunk lacks. -/
def left (r : PatchReader) : Nat × Nat :=
  match r.hunk with
  | some hunk => (hunk.oldLeft, hunk.newLeft)
  | none => (0, 0)

theorem left_of_none {r : PatchReader} (h : r.hunk = none) : r.left = (0, 0) := by
  simp [left, h]

theorem left_of_some {r : PatchReader} {hunk : OpenHunk} (h : r.hunk = some hunk) :
    r.left = (hunk.oldLeft, hunk.newLeft) := by
  simp [left, h]

theorem left_resume (r : PatchReader) (hunk : OpenHunk) :
    (r.resume hunk).left = (hunk.oldLeft, hunk.newLeft) := by
  cases hc : hunk.isComplete with
  | false =>
    rw [resume_of_not_complete hc]
    rfl
  | true =>
    obtain ⟨ho, hn⟩ := OpenHunk.isComplete_iff.1 hc
    rw [resume_of_complete hc, left_of_none rfl, ho, hn]

/-- A header opens a hunk that lacks the declared lengths. -/
theorem left_of_header {r m : PatchReader} {line : Line} {header : HunkHeader}
    (hl : HunkHeader.ofLine? line = some header) (h : r.readLine line = .ok m) :
    r.left = (0, 0) ∧ m.left = (header.old.declared, header.new.declared) := by
  obtain ⟨hn, -, hunk, ho, rfl⟩ := readLine_of_header hl h
  obtain ⟨hso, hsn, hleft, hright, -⟩ := OpenHunk.ofHeader_eq_ok_iff.1 ho
  have hlo := (HunkSide.span_eq_ok_iff.1 hso).2
  have hln := (HunkSide.span_eq_ok_iff.1 hsn).2
  refine ⟨left_of_none hn, ?_⟩
  rw [left_of_some rfl, hleft, hright, HunkSide.declared, HunkSide.declared, hlo, hln]

/-- Every other line is counted by the open hunk. -/
theorem left_of_not_header {r m : PatchReader} {line : Line}
    (hl : HunkHeader.ofLine? line = none) (h : r.readLine line = .ok m) :
    m.left = (r.left.1 - Line.oldWidth line, r.left.2 - Line.newWidth line) := by
  cases hr : r.hunk with
  | none =>
    obtain ⟨hm, -⟩ := readLine_of_heading hr hl h
    rw [left_of_none hm, left_of_none hr]
    simp
  | some hunk =>
    obtain ⟨bodyLine, later, hb, hk, rfl⟩ := readLine_of_hunk hr h
    obtain ⟨hwo, hwn⟩ := Line.widths_of_bodyLine hb
    obtain ⟨ho, hn, -⟩ := OpenHunk.take_eq_some_iff.1 hk
    rw [left_resume, left_of_some hr, ← hwo, ← hwn, Prod.mk.injEq]
    constructor <;> dsimp only <;> omega

/-- Reading a line passes over it in the lines outside bodies, or leaves it there in front. -/
theorem between_of_readLine {r m : PatchReader} {line : Line} (h : r.readLine line = .ok m)
    (rest : List Line) :
    Block.between r.left.1 r.left.2 (line :: rest) = Block.between m.left.1 m.left.2 rest ∨
    r.left = (0, 0) ∧
      Block.between r.left.1 r.left.2 (line :: rest) =
        line :: Block.between m.left.1 m.left.2 rest := by
  cases hl : HunkHeader.ofLine? line with
  | some header =>
    obtain ⟨hr, hm⟩ := left_of_header hl h
    left
    rw [hr, hm]
    simp [Block.between, hl]
  | none =>
    have hm := left_of_not_header hl h
    by_cases hz : r.left.1 = 0 ∧ r.left.2 = 0
    · right
      have hr : r.left = (0, 0) := Prod.ext hz.1 hz.2
      refine ⟨hr, ?_⟩
      rw [hm, hr]
      simp [Block.between, hl]
    · left
      rw [hm, Block.between, if_neg hz]

end PatchReader

namespace HunkHeader

theorem ofLine?_of_mark {line : Line} (h : Mark.ofLine line ≠ .hunk) : ofLine? line = none := by
  by_contra hne
  obtain ⟨header, hh⟩ := Option.ne_none_iff_exists'.1 hne
  obtain ⟨rest, rfl⟩ := Line.exists_of_startsWith (startsWith_of_ofLine? hh)
  exact h rfl

end HunkHeader

namespace Mark

theorem startsWith_of_note {line : Line} (h : ofLine line = .note) :
    Line.startsWith line ['\\'] = true := by
  by_contra hs
  simp only [ofLine, if_neg hs] at h
  split_ifs at h

theorem startsWith_of_hunk {line : Line} (h : ofLine line = .hunk) :
    Line.startsWith line ['@', '@'] = true := by
  by_contra hs
  simp only [ofLine, if_neg hs] at h
  split_ifs at h

end Mark

theorem Line.not_isMarked_of_startsWith {line : Line} {c : Char} {mark : List Char}
    (h : line.startsWith (c :: mark) = true) (hc : c ∉ Line.markers) : line.isMarked = false := by
  obtain ⟨rest, rfl⟩ := exists_of_startsWith h
  simpa [isMarked] using hc

namespace ScanState

/-- A hunk header is placed past a hunk, and any other line changes nothing about that. -/
theorem Outside.hadHunk_of_continues {s t : ScanState} {line : Line} {next : Option Line}
    (h : Outside s line next .continues t) :
    t.hadHunk = (s.hadHunk || (HunkHeader.ofLine? line).isSome) := by
  cases h with
  | hunk _ hh => simp [hh]
  | noteKept hm => simp [HunkHeader.ofLine?_of_mark (show Mark.ofLine line ≠ .hunk by simp [hm])]
  | sourceKept hm => simp [HunkHeader.ofLine?_of_mark (show Mark.ofLine line ≠ .hunk by simp [hm])]
  | target hm => simp [HunkHeader.ofLine?_of_mark (show Mark.ofLine line ≠ .hunk by simp [hm])]
  | otherKept hm =>
    have hne : Mark.ofLine line ≠ .hunk := by
      rcases hm with hm | ⟨hm, -⟩ <;> simp [hm]
    simp [HunkHeader.ofLine?_of_mark hne]

/-- Past a hunk, no line outside hunk bodies starts with the marker of a change. -/
theorem Outside.not_isMarked {s t : ScanState} {line : Line} {next : Option Line}
    (hc : s.Coherent (some line)) (hh : s.hadHunk = true)
    (h : Outside s line next .continues t) : line.isMarked = false := by
  cases h with
  | noteKept hm => exact Line.not_isMarked_of_startsWith (Mark.startsWith_of_note hm) (by decide)
  | hunk hm => exact Line.not_isMarked_of_startsWith (Mark.startsWith_of_hunk hm) (by decide)
  | sourceKept _ _ _ hg => simp [hc.header hg] at hh
  | target _ he => simp [(hc.expects he).2.1] at hh
  | otherKept _ _ _ _ hl =>
    cases line with
    | nil => rfl
    | cons c rest =>
      have hm : c ∉ Line.markers := by
        simp only [hh, Bool.true_and, List.head?_cons, Option.any_some] at hl
        simp only [Line.markers, List.mem_cons, List.not_mem_nil, or_false]
        rintro (rfl | rfl | rfl) <;> simp at hl
      simpa [Line.isMarked] using hm

end ScanState

namespace Scan

open ScanState

/-- Of the lines that are left of the open block, those outside all hunk bodies do not start with
the marker of a change, once the block has had a hunk. -/
structure Clear (s : ScanState) (r : PatchReader) (lines : List Line) : Prop where
  past : s.hadHunk = true → ∀ line ∈ Block.between r.left.1 r.left.2 lines, line.isMarked = false
  front : s.hadHunk = false → r.hunk = none → ∀ line ∈ Block.loose lines, line.isMarked = false

namespace Clear

theorem nil (s : ScanState) (r : PatchReader) : Clear s r [] where
  past := fun _ => by simp [Block.between]
  front := fun _ _ => by simp [Block.loose]

/-- A body line is counted by the open hunk of the reader. -/
theorem body {s : ScanState} {r m : PatchReader} {line : Line} {lines before : List Line}
    (h : Clear (s.consume line) m lines) (hm : r.readLine line = .ok m) (hb : s.inBody = true)
    (hf : ({} : PatchReader).Reads before r) (hs : s.InStep before) :
    Clear s r (line :: lines) := by
  obtain ⟨hunk, hh, hho, hhn⟩ := hs hb r hf
  constructor
  · intro hhad
    rcases PatchReader.between_of_readLine hm lines with hbt | ⟨hz, -⟩
    · rw [hbt]
      exact h.past hhad
    · have hlack := (inBody_iff.1 hb).2
      rw [PatchReader.left_of_some hh, Prod.mk.injEq] at hz
      omega
  · intro _ hnone
    simp [hh] at hnone

/-- A line that continues the block outside hunk bodies is not marked, or no hunk came before it. -/
theorem continues {s u : ScanState} {r m : PatchReader} {line : Line} {next : Option Line}
    {lines : List Line} (h : Clear u m lines) (hm : r.readLine line = .ok m)
    (hc : s.leaveBody.Coherent (some line)) (ho : Outside s.leaveBody line next .continues u) :
    Clear s r (line :: lines) := by
  have hhu := ho.hadHunk_of_continues
  rw [hadHunk_leaveBody] at hhu
  constructor
  · intro hhad
    have hline := ho.not_isMarked hc (by rw [hadHunk_leaveBody, hhad])
    have hlater := h.past (by rw [hhu, hhad, Bool.true_or])
    rcases PatchReader.between_of_readLine hm lines with hbt | ⟨-, hbt⟩
    · rw [hbt]
      exact hlater
    · rw [hbt]
      exact List.forall_mem_cons.2 ⟨hline, hlater⟩
  · intro hhad hnone
    cases hl : HunkHeader.ofLine? line with
    | some header =>
      obtain ⟨-, hleft⟩ := PatchReader.left_of_header hl hm
      have hlater := h.past (by rw [hhu, hl, Option.isSome_some, Bool.or_true])
      rw [hleft] at hlater
      simpa only [Block.loose, hl] using hlater
    | none =>
      obtain ⟨hmn, -⟩ := PatchReader.readLine_of_heading hnone hl hm
      have hlater := h.front (by rw [hhu, hl, hhad]; rfl) hmn
      simpa only [Block.loose, hl] using hlater

end Clear

/-- A block is clear along a run that places its lines, if the reader takes them all. -/
theorem Run.clear {s t : ScanState} {placed : List (Placement × Line)}
    {next : Option Line} (h : Run s placed next t) (hc : s.Coherent (upcoming placed next))
    (hi : s.inside = true) {before : List Line} {r : PatchReader}
    (hf : ({} : PatchReader).Reads before r) (hs : s.InStep before) {patches : List Patch}
    (hr : r.Completes (Block.gather placed).1 patches) : Clear s r (Block.gather placed).1 := by
  induction h generalizing before r with
  | done => exact .nil _ _
  | @step s u _ p line later _ hp hrest ih =>
    have hcu := hc.place hp
    rcases place_eq_ok_iff.1 hp with ⟨hb, hl, rfl, rfl⟩ | ⟨-, ho⟩
    · obtain ⟨m, hm, hcm⟩ := PatchReader.completes_cons.1 hr
      have hfm := PatchReader.reads_append.2 ⟨r, hf, PatchReader.reads_singleton.2 hm⟩
      exact (ih hcu hi hfm (hs.body hb) hcm).body hm hb hf hs
    · have hxl := exhausted_leaveBody hc
      cases p with
      | opens => exact .nil _ _
      | body => cases ho
      | closes =>
        have hnil := hrest.gather_fst_eq_nil ho.inside_of_closes
        rw [Block.gather_cons, Block.attach, hnil]
        exact .nil _ _
      | skipped =>
        obtain rfl := ho.eq_of_skipped
        have hsu : s.leaveBody.InStep before := by
          intro hb
          simp [not_inBody_of_exhausted hxl] at hb
        obtain ⟨hpast, hfront⟩ := ih hcu (by simpa using hi) hf hsu hr
        exact ⟨by simpa [Block.attach] using hpast, by simpa [Block.attach] using hfront⟩
      | continues =>
        obtain ⟨m, hm, hcm⟩ := PatchReader.completes_cons.1 hr
        have hfm := PatchReader.reads_append.2 ⟨r, hf, PatchReader.reads_singleton.2 hm⟩
        have hlater := ih hcu ho.inside_of_continues hfm (InStep.outside hxl ho rfl) hcm
        exact hlater.continues hm (coherent_leaveBody hc) ho

/-- In every block that is read, no line outside all hunk bodies starts with the marker of a change
after a hunk header. -/
theorem Run.not_isMarked_of_mem_loose {s t : ScanState} {placed : List (Placement × Line)}
    {next : Option Line} (h : Run s placed next t) (hc : s.Coherent (upcoming placed next))
    {block : Block} (hb : block ∈ Block.ofPlaced placed) {patches : List Patch}
    (hr : Patch.ofBlock block = .ok patches) :
    ∀ line ∈ Block.loose block, line.isMarked = false := by
  induction h with
  | done => simp [Block.ofPlaced] at hb
  | @step s u _ p line later _ hp hrest ih =>
    have hcu := hc.place hp
    rcases place_eq_ok_iff.1 hp with ⟨-, -, rfl, rfl⟩ | ⟨-, ho⟩
    · exact ih hcu hb
    · cases p with
      | opens =>
        rcases List.mem_cons.1 hb with rfl | hb
        · obtain ⟨hm, hi, hhad⟩ := ho.of_opens
          have hl := HunkHeader.ofLine?_of_mark hm
          obtain ⟨m, hline, hcm⟩ :=
            PatchReader.completes_cons.1 (Patch.ofBlock_eq_ok_iff.1 hr)
          obtain ⟨hmn, -⟩ := PatchReader.readLine_of_heading rfl hl hline
          have hsu : u.InStep [line] := fun hbody =>
            absurd (ho.mark_of_inBody (exhausted_leaveBody hc) hbody) hm
          have hlater :=
            (hrest.clear hcu hi (PatchReader.reads_singleton.2 hline) hsu hcm).front hhad hmn
          have hloose : Block.loose (line :: (Block.gather later).1) =
              Block.loose (Block.gather later).1 := by
            simp only [Block.loose, hl]
          rw [← hloose] at hlater
          exact hlater
        · exact ih hcu hb
      | _ => exact ih hcu hb

end Scan
end DiffReview
