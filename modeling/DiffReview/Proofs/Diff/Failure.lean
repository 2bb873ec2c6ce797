import DiffReview.Proofs.Diff.Accepted
import DiffReview.Proofs.Patch.Bodies
import DiffReview.Proofs.Scan.Stop

/-!
# How a parse fails

A diff that is not read is rejected with a fault and a block, unless a hunk header in it cannot be
used: a numeral of it is too long to be converted, or it lets a side that has lines start at zero.
Either of these is found at a line of the text, wherever the failure comes up.
-/
namespace DiffReview

namespace HunkSide

/-- The numerals of a side are not too long, and its lines are counted from one if it has any. -/
def Usable (side : HunkSide) : Prop :=
  ∃ span, side.span = .ok span ∧ (0 < span.start ∨ span.length = 0)

instance (side : HunkSide) : Decidable side.Usable :=
  match h : side.span with
  | .ok span => decidable_of_iff (0 < span.start ∨ span.length = 0)
      ⟨fun hs => ⟨span, h, hs⟩, fun ⟨_, ho, hs⟩ => Except.ok.inj (h.symm.trans ho) ▸ hs⟩
  | .error _ => .isFalse fun ⟨_, ho, _⟩ => nomatch h.symm.trans ho

end HunkSide

/-- Both sides of a hunk header can be used. -/
def HunkHeader.Usable (header : HunkHeader) : Prop := header.old.Usable ∧ header.new.Usable

instance (header : HunkHeader) : Decidable header.Usable :=
  inferInstanceAs (Decidable (_ ∧ _))

theorem HunkHeader.not_usable_of_ofHeader {header : HunkHeader} {e : NumeralTooLong}
    (h : OpenHunk.ofHeader header = .error e) : ¬ header.Usable := by
  rintro ⟨⟨old, ho, -⟩, ⟨new, hn, -⟩⟩
  simp [OpenHunk.ofHeader, ho, hn] at h

namespace ScanState

variable {s : ScanState} {line : Line} {next : Option Line} {e : NumeralTooLong}

theorem exists_header_of_placeHunk (h : s.placeHunk line = .error (.numeral e)) :
    ∃ header, HunkHeader.ofLine? line = some header ∧ ¬ header.Usable := by
  unfold placeHunk at h
  cases hh : HunkHeader.ofLine? line with
  | none => simp [hh] at h
  | some header =>
    refine ⟨header, rfl, ?_⟩
    rintro ⟨⟨old, ho, -⟩, ⟨new, hn, -⟩⟩
    have hold := (HunkSide.span_eq_ok_iff.1 ho).2
    have hnew := (HunkSide.span_eq_ok_iff.1 hn).2
    cases hi : s.inside <;> simp [hh, hi, hold, hnew] at h

theorem placeSource_ne_numeral : s.placeSource next ≠ .error (.numeral e) := by
  unfold placeSource
  repeat' split
  all_goals simp

theorem placeTarget_ne_numeral : s.placeTarget ≠ .error (.numeral e) := by
  unfold placeTarget
  split <;> simp

theorem placeOther_ne_numeral : s.placeOther line ≠ .error (.numeral e) := by
  unfold placeOther
  repeat' split
  all_goals simp

/-- Only a hunk header keeps a line from being placed for its numerals. -/
theorem exists_header_of_place (h : s.place line next = .error (.numeral e)) :
    ∃ header, HunkHeader.ofLine? line = some header ∧ ¬ header.Usable := by
  unfold place at h
  split at h
  · cases h
  unfold placeOutside at h
  split at h
  · cases h
  · exact exists_header_of_placeHunk h
  · cases h
  · exact absurd h placeSource_ne_numeral
  · exact absurd h placeTarget_ne_numeral
  · split at h
    · exact absurd h placeOther_ne_numeral
    · cases h
  · exact absurd h placeOther_ne_numeral

end ScanState

namespace PatchReader

variable {r : PatchReader} {line : Line} {e : NumeralTooLong}

theorem readBody_ne_numeral {hunk : OpenHunk} : r.readBody hunk line ≠ .error (.numeral e) := by
  unfold readBody
  repeat' split
  all_goals simp

theorem readTarget_ne_numeral {path : List Char} :
    r.readTarget line path ≠ .error (.numeral e) := by
  unfold readTarget
  repeat' split
  all_goals simp

/-- Only a hunk header keeps a line from being read for its numerals. -/
theorem exists_header_of_readLine (h : r.readLine line = .error (.numeral e)) :
    ∃ header, HunkHeader.ofLine? line = some header ∧ ¬ header.Usable := by
  unfold readLine at h
  split at h
  · exact absurd h readBody_ne_numeral
  unfold readHeading at h
  cases hl : Heading.ofLine line with
  | hunk header =>
    refine ⟨header, Heading.ofLine_eq_hunk_iff.1 hl, ?_⟩
    simp only [hl] at h
    split at h
    · split at h
      · rename_i e' he
        exact HunkHeader.not_usable_of_ofHeader he
      · cases h
    · cases h
  | target path => exact absurd (by simpa only [hl] using h) readTarget_ne_numeral
  | _ =>
    simp only [hl] at h
    repeat' split at h
    all_goals cases h

theorem finish_ne_numeral : r.finish ≠ .error (.numeral e) := by
  unfold finish
  repeat' split
  all_goals simp

end PatchReader

namespace Numbered

/-- Lines that are counted from one have no number zero. -/
theorem number_pos {old new : Nat} {body : List BodyLine}
    (ho : 0 < old ∨ BodyLine.oldLength body = 0) (hn : 0 < new ∨ BodyLine.newLength body = 0) :
    ∀ n ∈ ofBody old new body, 0 < n.number := by
  induction body generalizing old new with
  | nil => simp [ofBody]
  | cons line body ih =>
    rw [BodyLine.oldLength_cons] at ho
    rw [BodyLine.newLength_cons] at hn
    cases line with
    | note text =>
      simp only [ofBody, BodyLine.oldWidth, BodyLine.newWidth] at *
      exact ih (by omega) (by omega)
    | _ =>
      simp only [ofBody, List.forall_mem_cons, BodyLine.oldWidth, BodyLine.newWidth] at *
      exact ⟨by omega, ih (by omega) (by omega)⟩

/-- Lines with positive numbers are changes. -/
theorem isSome_mapM_change? {lines : List Numbered} (h : ∀ n ∈ lines, 0 < n.number) :
    (lines.mapM change?).isSome := by
  induction lines with
  | nil => simp
  | cons n lines ih =>
    rw [List.forall_mem_cons] at h
    obtain ⟨changes, hc⟩ := Option.isSome_iff_exists.1 (ih h.2)
    simp [List.mapM_cons, change?, h.1, hc]

end Numbered

namespace Block

/-- The header of a hunk stands in the block. -/
theorem exists_line_of_hunkLines {block : List Line} {lines : HunkLines}
    (h : lines ∈ hunkLines block) :
    ∃ line ∈ block, HunkHeader.ofLine? line = some lines.header := by
  induction block with
  | nil => simp [hunkLines] at h
  | cons line rest ih =>
    cases hl : HunkHeader.ofLine? line with
    | none =>
      rw [hunkLines_of_none hl] at h
      obtain ⟨other, ho, hh⟩ := ih h
      exact ⟨other, List.mem_cons_of_mem _ ho, hh⟩
    | some header =>
      rw [hunkLines_of_header hl] at h
      rcases List.mem_cons.1 h with rfl | h
      · exact ⟨line, List.mem_cons_self, hl⟩
      · obtain ⟨other, ho, hh⟩ := ih h
        exact ⟨other, List.mem_cons_of_mem _ ho, hh⟩

/-- Every hunk header among some lines can be used. -/
def HeadersUsable (lines : List Line) : Prop :=
  ∀ line ∈ lines, ∀ header ∈ HunkHeader.ofLine? line, header.Usable

instance (lines : List Line) : Decidable (HeadersUsable lines) :=
  inferInstanceAs (Decidable (∀ line ∈ lines, ∀ header ∈ HunkHeader.ofLine? line, header.Usable))

variable {block : Block}

/-- A block whose headers can be used is not refused for a numeral. -/
theorem ofBlock_ne_numeral (hu : HeadersUsable block) {e : NumeralTooLong} :
    Patch.ofBlock block ≠ .error (.numeral e) := by
  intro h
  unfold Patch.ofBlock at h
  split at h
  · rename_i stop hf
    cases h
    obtain ⟨line, hl, r, hr⟩ := exists_of_foldlM_eq_error hf
    obtain ⟨header, hh, hno⟩ := PatchReader.exists_header_of_readLine hr
    exact hno (hu line hl header hh)
  · exact PatchReader.finish_ne_numeral h

/-- No line gets the number zero in a block whose headers can be used. -/
theorem isSome_fileChange? (hu : HeadersUsable block) {patch : Patch}
    (h : Patch.ofBlock block = .ok [patch]) : patch.fileChange?.isSome := by
  have hpos : ∀ n ∈ patch.numbered, 0 < n.number := by
    intro n hn
    obtain ⟨hunk, hh, hn⟩ := List.mem_flatMap.1 hn
    obtain ⟨lines, hl, hm⟩ := exists_of_forall₂_of_mem (Patch.makes_of_ofBlock h).flip hh
    obtain ⟨line, hline, hheader⟩ := exists_line_of_hunkLines hl
    obtain ⟨⟨old, ho, hold⟩, ⟨new, hn', hnew⟩⟩ := hu line hline lines.header hheader
    obtain rfl : old = hunk.old := by simpa [hm.old] using ho.symm
    obtain rfl : new = hunk.new := by simpa [hm.new] using hn'.symm
    exact Numbered.number_pos (hm.oldLength ▸ hold) (hm.newLength ▸ hnew) n hn
  simpa [Patch.fileChange?] using Numbered.isSome_mapM_change? hpos

/-- A block whose headers can be used is read, or rejected. -/
theorem fileChange_ok_or_rejected (hu : HeadersUsable block) :
    (∃ file, block.fileChange = .ok file) ∨ ∃ e, block.fileChange = .error (.rejected e) := by
  unfold fileChange
  cases hp : Patch.ofBlock block with
  | error stop =>
    cases stop with
    | fault fault => exact .inr ⟨_, rfl⟩
    | numeral e => exact absurd hp (ofBlock_ne_numeral hu)
  | ok patches =>
    match patches with
    | [] => exact .inr ⟨_, rfl⟩
    | [patch] =>
      obtain ⟨file, hf⟩ := Option.isSome_iff_exists.1 (isSome_fileChange? hu hp)
      exact .inl ⟨file, by simp [hf]⟩
    | _ :: _ :: _ => exact .inr ⟨_, rfl⟩

/-- Lines whose headers can be used are split into blocks of such lines, or rejected. -/
theorem ofLines_ok_or_rejected {lines : List Line} (hu : HeadersUsable lines) :
    (∃ blocks, ofLines lines = .ok blocks ∧ ∀ block ∈ blocks, HeadersUsable block) ∨
      ∃ e, ofLines lines = .error (.rejected e) := by
  cases ho : ofLines lines with
  | ok blocks =>
    obtain ⟨placed, t, -, rfl, rfl⟩ := ofLines_eq_ok_iff.1 ho
    exact .inl ⟨_, rfl, fun block hb line hl => hu line (mem_of_mem_ofPlaced hb hl)⟩
  | error e =>
    refine .inr ?_
    unfold ofLines at ho
    cases hs : (Scan.ofLines lines).stop with
    | none => simp [hs] at ho
    | some stop =>
      obtain ⟨stop, line⟩ := stop
      cases stop with
      | fault fault =>
        simp only [hs, Except.error.injEq] at ho
        exact ⟨_, by rw [← ho]; rfl⟩
      | numeral e =>
        obtain ⟨s, rest, hl, -, hp⟩ := Scan.exists_run_of_stop hs
        obtain ⟨header, hh, hno⟩ := ScanState.exists_header_of_place hp
        have hline : line ∈ lines := by
          rw [hl]
          exact List.mem_append_right _ List.mem_cons_self
        exact absurd (hu line hline header hh) hno

end Block

namespace ParsedDiff

/-- A text whose hunk headers can be used is read, or rejected with a fault and a block. -/
theorem parse_ok_or_rejected {text : String} (hu : Block.HeadersUsable (Text.lines text.toList)) :
    (∃ diff, parse text = .ok diff) ∨ ∃ e, parse text = .error (.rejected e) := by
  unfold parse Block.split
  rcases Block.ofLines_ok_or_rejected hu with ⟨blocks, ho, hb⟩ | ⟨e, he⟩
  · rw [ho]
    cases hm : blocks.mapM Block.fileChange with
    | ok files => exact .inl ⟨⟨files⟩, by simp [hm]⟩
    | error e =>
      obtain ⟨block, hblock, hf⟩ := exists_of_mapM_eq_error hm
      rcases Block.fileChange_ok_or_rejected (hb block hblock) with ⟨file, hok⟩ | ⟨e', he⟩
      · simp [hok] at hf
      · cases hf.symm.trans he
        exact .inr ⟨e', by simp [hm]⟩
  · rw [he]
    exact .inr ⟨e, rfl⟩

end ParsedDiff

end DiffReview
