import DiffReview.Proofs.Patch.Shape

/-!
# Replacing the text of a body line

A reader keeps the body lines in the order in which it read them. So two readers that differ in the
text of one body line go on to differ in that text and in nothing else.
-/
namespace DiffReview

/-- The body lines of a patch, in order. -/
def Patch.bodyLines (patch : Patch) : List BodyLine := patch.hunks.flatMap Hunk.body

namespace PatchReader

/-- The body lines that have been read, in order. -/
def bodyLines (r : PatchReader) : List BodyLine :=
  r.patches.flatMap Patch.bodyLines ++ (r.hunk.map (·.taken.reverse)).getD []

/-- An open hunk is a hunk of the current patch. -/
def Sound (r : PatchReader) : Prop := r.hunk.isSome = true → r.current.isSome = true

theorem flatMap_bodyLines (r : PatchReader) :
    r.patches.flatMap Patch.bodyLines = r.hunks.flatMap Hunk.body := by
  rw [hunks, List.flatMap_assoc]
  rfl

theorem bodyLines_of_hunk {r : PatchReader} {hunk : OpenHunk} (h : r.hunk = some hunk) :
    r.bodyLines = r.patches.flatMap Patch.bodyLines ++ hunk.taken.reverse := by
  simp [bodyLines, h]

theorem bodyLines_of_none {r : PatchReader} (h : r.hunk = none) :
    r.bodyLines = r.patches.flatMap Patch.bodyLines := by
  simp [bodyLines, h]

theorem flatMap_bodyLines_resume {r : PatchReader} {hunk : OpenHunk}
    (hc : r.current.isSome = true) (h : hunk.isComplete = true) :
    (r.resume hunk).patches.flatMap Patch.bodyLines =
      r.patches.flatMap Patch.bodyLines ++ hunk.taken.reverse := by
  obtain ⟨patch, hp⟩ := Option.isSome_iff_exists.1 hc
  simp [resume_of_complete h, patches, update, hp, Patch.bodyLines, OpenHunk.close]

/-- However far the open hunk has come, its body lines are the last that have been read. -/
theorem bodyLines_resume {r : PatchReader} {hunk : OpenHunk} (hc : r.current.isSome = true) :
    (r.resume hunk).bodyLines = r.patches.flatMap Patch.bodyLines ++ hunk.taken.reverse := by
  cases h : hunk.isComplete with
  | true =>
    rw [← flatMap_bodyLines_resume hc h]
    exact bodyLines_of_none (by rw [resume_of_complete h])
  | false =>
    rw [resume_of_not_complete h]
    exact bodyLines_of_hunk rfl

theorem sound_resume {r : PatchReader} {hunk : OpenHunk} (hc : r.current.isSome = true) :
    (r.resume hunk).Sound := by
  intro _
  unfold resume
  split
  · simpa [update] using hc
  · exact hc

/-- The body line that a reader takes, if a hunk is open. -/
def gains (r : PatchReader) (line : Line) : List BodyLine :=
  if r.hunk.isSome then (BodyLine.ofLine? line).toList else []

/-- A line is added to the body lines if a hunk is open, and otherwise leaves them as they are. -/
theorem bodyLines_readLine {r q : PatchReader} {line : Line} (hs : r.Sound)
    (h : r.readLine line = .ok q) : q.Sound ∧ q.bodyLines = r.bodyLines ++ r.gains line := by
  cases hr : r.hunk with
  | some hunk =>
    have hc : r.current.isSome = true := hs (by rw [hr]; rfl)
    obtain ⟨bodyLine, later, hl, hk, rfl⟩ := readLine_of_hunk hr h
    obtain ⟨-, -, ht, -⟩ := OpenHunk.take_eq_some_iff.1 hk
    refine ⟨sound_resume hc, ?_⟩
    rw [bodyLines_resume hc, bodyLines_of_hunk hr, ht]
    simp [gains, hr, hl]
  | none =>
    have hg : r.gains line = [] := by simp [gains, hr]
    rw [hg, List.append_nil, bodyLines_of_none hr]
    rcases readLine_eq_ok_iff.1 h with ⟨hunk, hh, -⟩ | ⟨-, hh⟩
    · simp [hr] at hh
    · rcases readHeading_hunks hh with ⟨header, hunk, -, ho, hc, rfl⟩ | ⟨-, hq, hk⟩
      · have ht := (OpenHunk.ofHeader_eq_ok_iff.1 ho).2.2.2.2
        refine ⟨fun _ => hc, ?_⟩
        rw [bodyLines_of_hunk rfl, ht, List.reverse_nil, List.append_nil]
        rfl
      · have hn : q.hunk = none := hq.trans hr
        refine ⟨by simp [Sound, hn], ?_⟩
        rw [bodyLines_of_none hn, flatMap_bodyLines, flatMap_bodyLines, hk]

theorem bodyLines_finish {r : PatchReader} {patches : List Patch} (hs : r.Sound)
    (h : r.finish = .ok patches) : patches.flatMap Patch.bodyLines = r.bodyLines := by
  rcases finish_eq_ok_iff.1 h with ⟨hn, rfl⟩ | ⟨hunk, hh, hc, rfl⟩
  · exact (bodyLines_of_none hn).symm
  · rw [bodyLines_of_hunk hh, flatMap_bodyLines_resume (hs (by rw [hh]; rfl)) hc]

/-- The readers differ in one body line, which has the same shape in both. -/
structure Differ (first : List BodyLine) (line line' : BodyLine) (last : List BodyLine)
    (r r' : PatchReader) : Prop where
  shape : r'.shape = r.shape
  sound : r.Sound
  sound' : r'.Sound
  bodyLines : r.bodyLines = first ++ line :: last
  bodyLines' : r'.bodyLines = first ++ line' :: last

/-- Readers that differ in one body line go on to differ in that line. -/
theorem Differ.exists_reads {first last : List BodyLine} {line line' : BodyLine}
    {r r' q : PatchReader} (h : Differ first line line' last r r') {lines : List Line}
    (hq : r.Reads lines q) :
    ∃ q' later, r'.Reads lines q' ∧ Differ first line line' (last ++ later) q q' := by
  induction lines generalizing r r' last with
  | nil =>
    obtain rfl := reads_nil.1 hq
    exact ⟨r', [], reads_nil.2 rfl, by rwa [List.append_nil]⟩
  | cons next lines ih =>
    obtain ⟨m, hm, hmq⟩ := reads_cons.1 hq
    obtain ⟨m', hm', hshape⟩ := exists_readLine_of_shape h.shape (.inl rfl) hm
    obtain ⟨hs, hb⟩ := bodyLines_readLine h.sound hm
    obtain ⟨hs', hb'⟩ := bodyLines_readLine h.sound' hm'
    have hg : r'.gains next = r.gains next := by
      have hhunk := congrArg (fun r => r.hunk.isSome) h.shape
      simp only [PatchReader.shape, Option.isSome_map] at hhunk
      simp only [gains, hhunk]
    have hd : Differ first line line' (last ++ r.gains next) m m' :=
      ⟨hshape, hs, hs', by simp [hb, h.bodyLines], by simp [hb', hg, h.bodyLines']⟩
    obtain ⟨q', later, hq', hdq⟩ := ih hd hmq
    exact ⟨q', r.gains next ++ later, reads_cons.2 ⟨m', hm', hq'⟩, by rwa [← List.append_assoc]⟩

theorem sound_of_reads {r q : PatchReader} {lines : List Line} (hs : r.Sound)
    (h : r.Reads lines q) : q.Sound := by
  induction lines generalizing r with
  | nil =>
    obtain rfl := reads_nil.1 h
    exact hs
  | cons line lines ih =>
    obtain ⟨m, hm, hmq⟩ := reads_cons.1 h
    exact ih (bodyLines_readLine hs hm).1 hmq

end PatchReader

namespace Patch

/-- Replacing a line of a hunk body by one of the same shape replaces that body line of the patch
and leaves everything else as it is. -/
theorem exists_ofBlock_of_shape {front back : List Line} {line line' : Line}
    {bodyLine bodyLine' : BodyLine} {patch : Patch} {r : PatchReader}
    (hr : ({} : PatchReader).Reads front r) (hh : r.hunk.isSome = true)
    (hl : BodyLine.ofLine? line = some bodyLine) (hl' : BodyLine.ofLine? line' = some bodyLine')
    (hs : bodyLine'.shape = bodyLine.shape) (h : ofBlock (front ++ line :: back) = .ok [patch]) :
    ∃ patch' last, ofBlock (front ++ line' :: back) = .ok [patch'] ∧ patch'.shape = patch.shape ∧
      patch.bodyLines = r.bodyLines ++ bodyLine :: last ∧
      patch'.bodyLines = r.bodyLines ++ bodyLine' :: last := by
  obtain ⟨q, hq, hf⟩ := ofBlock_eq_ok_iff.1 h
  obtain ⟨r₀, hr₀, hrq⟩ := PatchReader.reads_append.1 hq
  obtain rfl : r₀ = r := by
    have he := hr₀.symm.trans hr
    exact Except.ok.inj he
  obtain ⟨m, hm, hmq⟩ := PatchReader.reads_cons.1 hrq
  have hsound : r₀.Sound := PatchReader.sound_of_reads (by simp [PatchReader.Sound]) hr₀
  obtain ⟨m', hm', hshape⟩ : ∃ m', r₀.readLine line' = .ok m' ∧ m'.shape = m.shape := by
    refine PatchReader.exists_readLine_of_shape rfl (.inr ⟨hh, ?_⟩) hm
    rw [hl, hl', Option.map_some, Option.map_some, hs]
  obtain ⟨hms, hmb⟩ := PatchReader.bodyLines_readLine hsound hm
  obtain ⟨hms', hmb'⟩ := PatchReader.bodyLines_readLine hsound hm'
  have hd : PatchReader.Differ r₀.bodyLines bodyLine bodyLine' [] m m' :=
    ⟨hshape, hms, hms', by simp [hmb, PatchReader.gains, hh, hl],
      by simp [hmb', PatchReader.gains, hh, hl']⟩
  obtain ⟨q', last, hq', hdq⟩ := hd.exists_reads hmq
  obtain ⟨patches', hf', hp⟩ := PatchReader.exists_finish_of_shape hdq.shape hf
  obtain ⟨patch', rfl, hps⟩ : ∃ patch', patches' = [patch'] ∧ patch'.shape = patch.shape := by
    simpa using List.map_eq_singleton_iff.1 hp
  refine ⟨patch', last, ?_, hps, ?_, ?_⟩
  · exact ofBlock_eq_ok_iff.2 ⟨q', PatchReader.reads_append.2 ⟨r₀, hr₀,
      PatchReader.reads_cons.2 ⟨m', hm', hq'⟩⟩, hf'⟩
  · have hb := PatchReader.bodyLines_finish hdq.sound hf
    rw [hdq.bodyLines] at hb
    simpa using hb
  · have hb := PatchReader.bodyLines_finish hdq.sound' hf'
    rw [hdq.bodyLines'] at hb
    simpa using hb

end Patch
end DiffReview
