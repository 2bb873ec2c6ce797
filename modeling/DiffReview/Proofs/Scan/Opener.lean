import DiffReview.Proofs.Scan.Rescan

/-!
# Lines that open a block

A block begins with a command line, with a source line in front of a target line, or with a notice
about binary files. Where no block is open these are the lines that open one, whatever came before;
all others are skipped there.
-/
namespace DiffReview

namespace Line

/-- A line that can open a block; the line after it is known. -/
def Opens (line : Line) (next : Option Line) : Prop :=
  startsWith line "diff ".toList = true ∨
  startsWith line Mark.sourceMark = true ∧ ScanState.Heralds next ∨
  isBinaryNotice line = true

instance (line : Line) (next : Option Line) : Decidable (line.Opens next) :=
  inferInstanceAs (Decidable (_ ∨ (_ ∧ Option.any _ _ = true) ∨ _))

/-- A blank line has no mark. -/
theorem mark_of_isBlank {line : Line} (h : isBlank line = true) : Mark.ofLine line = .other := by
  cases line with
  | nil => rfl
  | cons c rest =>
    obtain rfl : c = '\r' := by simp_all [isBlank]
    rfl

theorem mark_of_command {line : Line} (h : startsWith line "diff ".toList = true) :
    Mark.ofLine line = .command := by
  obtain ⟨rest, rfl⟩ := exists_of_startsWith h
  rfl

theorem mark_of_source {line : Line} (h : startsWith line Mark.sourceMark = true) :
    Mark.ofLine line = .source := by
  obtain ⟨rest, rfl⟩ := exists_of_startsWith h
  rfl

theorem mark_of_isBinaryNotice {line : Line} (h : isBinaryNotice line = true) :
    Mark.ofLine line = .binary := by
  have hb : ∃ rest, afterBinary? line = some rest := by
    unfold isBinaryNotice at h
    split at h
    · exact ⟨_, ‹_›⟩
    · cases h
  have hp : ∃ rest, "Binary file".toList.isPrefixOf? line = some rest := by
    obtain ⟨_, hb⟩ := hb
    unfold afterBinary? at hb
    split at hb
    · exact ⟨_, ‹_›⟩
    · exact ⟨_, ‹_›⟩
    · cases hb
  obtain ⟨rest, hp⟩ := hp
  obtain rfl := List.isPrefixOf?_eq_some_iff_append_eq.1 hp
  exact if_pos h

theorem startsWith_of_mark_command {line : Line} (h : Mark.ofLine line = .command) :
    startsWith line "diff ".toList = true := by
  unfold Mark.ofLine at h
  split_ifs at h
  assumption

theorem startsWith_of_mark_source {line : Line} (h : Mark.ofLine line = .source) :
    startsWith line Mark.sourceMark = true := by
  unfold Mark.ofLine at h
  split_ifs at h
  assumption

theorem isBinaryNotice_of_mark {line : Line} (h : Mark.ofLine line = .binary) :
    isBinaryNotice line = true := by
  unfold Mark.ofLine at h
  split_ifs at h
  assumption

/-- The lines that can open a block are told by their marks. -/
theorem opens_iff {line : Line} {next : Option Line} : line.Opens next ↔
    Mark.ofLine line = .command ∨ Mark.ofLine line = .source ∧ ScanState.Heralds next ∨
      Mark.ofLine line = .binary := by
  rw [Opens]
  have hc : startsWith line "diff ".toList = true ↔ Mark.ofLine line = .command :=
    ⟨mark_of_command, startsWith_of_mark_command⟩
  have hs : startsWith line Mark.sourceMark = true ↔ Mark.ofLine line = .source :=
    ⟨mark_of_source, startsWith_of_mark_source⟩
  have hb : isBinaryNotice line = true ↔ Mark.ofLine line = .binary :=
    ⟨mark_of_isBinaryNotice, isBinaryNotice_of_mark⟩
  rw [hc, hs, hb]

theorem content_cons_of_ne {c : Char} (h : c ≠ '\r') (line : Line) :
    content (c :: line) = c :: content line := by
  rw [content, content, Text.trimEnd, Text.trimEnd, List.reverse_cons, List.dropWhile_append]
  split
  · rename_i he
    simp [h, List.isEmpty_iff.1 he]
  · simp

/-- The line `--` has no mark of its own. -/
theorem mark_of_isSignature {line : Line} (h : isSignature line = true) :
    Mark.ofLine line = .other := by
  have hc : content line = ['-', '-'] ∨ content line = ['-', '-', ' '] := by
    simpa [isSignature] using h
  have hp : ['-', '-'] <+: content line := by
    rcases hc with hc | hc <;> simp [hc]
  obtain ⟨back, rfl⟩ : ['-', '-'] <+: line := hp.trans (Text.trimEnd_prefix _ line)
  have hm : Mark.ofLine ('-' :: '-' :: back) =
      if startsWith ('-' :: '-' :: back) Mark.sourceMark then .source else .other := rfl
  refine hm.trans (if_neg fun hs => ?_)
  obtain ⟨rest, hr⟩ : Mark.sourceMark <+: '-' :: '-' :: back := by simpa [startsWith] using hs
  rw [List.cons_append, List.cons_append, List.nil_append, ← hr] at hc
  simp [Mark.sourceMark, content_cons_of_ne] at hc

end Line

namespace Block

/-- The block begins with a line that opens it. -/
def Begins : Block → Prop
  | [] => False
  | line :: rest => line.Opens rest.head?

end Block

namespace ScanState

/-- Where no block is open, exactly the lines that can open a block do. -/
theorem opens_iff_of_not_inside {s t : ScanState} {line : Line} {next : Option Line}
    {p : Placement} (hi : s.inside = false) (hg : s.gitHeader = false)
    (h : s.place line next = .ok (p, t)) : p = .opens ↔ line.Opens next := by
  have hb : s.inBody = false := by simp [inBody, hi]
  rcases place_eq_ok_iff.1 h with ⟨hb', -⟩ | ⟨-, ho⟩
  · simp [hb] at hb'
  rw [leaveBody_of_not_inBody hb] at ho
  rw [Line.opens_iff]
  cases ho with
  | otherSkipped hm => rcases hm with hm | ⟨-, hg'⟩ <;> simp_all
  | _ => simp_all

/-- A line that opens a block can open one. -/
theorem opens_of_place {s t : ScanState} {line : Line} {next : Option Line}
    (h : s.place line next = .ok (.opens, t)) : line.Opens next := by
  rw [Line.opens_iff]
  rcases place_eq_ok_iff.1 h with ⟨-, -, hp, -⟩ | ⟨-, ho⟩
  · cases hp
  · cases ho with
    | command hm => exact .inl hm
    | sourceOpens hm ht => exact .inr (.inl ⟨hm, ht⟩)
    | binaryOpens hm => exact .inr (.inr hm)

end ScanState

namespace Line

/-- Whether a line can open a block depends on the next line only where that is a target line. -/
theorem Opens.congr {line : Line} {next other : Option Line} (h : line.Opens next)
    (hn : ScanState.Heralds next → ScanState.Heralds other) : line.Opens other := by
  rcases h with h | ⟨h, ht⟩ | h
  · exact .inl h
  · exact .inr (.inl ⟨h, hn ht⟩)
  · exact .inr (.inr h)

end Line

namespace Scan

/-- A target line that comes next goes to the open block. -/
theorem Run.heralds_gather {s t : ScanState} {placed : List (Placement × Line)}
    {next : Option Line} (h : Run s placed next t) (hn : ¬ ScanState.Heralds next)
    (hh : ScanState.Heralds (upcoming placed next)) :
    ScanState.Heralds (Block.gather placed).1.head? := by
  cases h with
  | done => exact absurd hh hn
  | step hp _ =>
    rcases ScanState.continues_or_body_of_heralds hh hp with rfl | rfl <;> exact hh

/-- Every block of a run begins with a line that opens it. -/
theorem Run.begins {s t : ScanState} {placed : List (Placement × Line)} {next : Option Line}
    (h : Run s placed next t) (hn : ¬ ScanState.Heralds next) :
    ∀ block ∈ Block.ofPlaced placed, block.Begins := by
  induction h with
  | done => simp [Block.ofPlaced]
  | @step _ _ _ p line later _ hp hr ih =>
    cases p with
    | opens =>
      rw [Block.ofPlaced_opens, List.forall_mem_cons]
      exact ⟨(ScanState.opens_of_place hp).congr (hr.heralds_gather hn), ih hn⟩
    | _ => exact ih hn

end Scan
end DiffReview
