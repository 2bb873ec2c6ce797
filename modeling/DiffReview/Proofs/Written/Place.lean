import DiffReview.Proofs.Written.Heading
import DiffReview.Proofs.Written.Changes
import DiffReview.Proofs.Scan.Blocks
import Mathlib.Data.List.Chain

/-!
# Placing a written entry

The scanner opens a block at the first line of a written entry and keeps all its other lines in
that block, whatever stands in the hunk bodies. It is then ready for the next entry.
-/
namespace DiffReview

/-- The lines are placed in the block that is open. -/
structure Block.Keeps (placed : List (Placement × Line)) (lines : List Line) : Prop where
  lines : placed.map Prod.snd = lines
  kept : ∀ p ∈ placed, p.1 = .continues ∨ p.1 = .body

namespace Block.Keeps

variable {placed later : List (Placement × Line)} {lines ms : List Line}

theorem nil : Keeps [] [] where
  lines := rfl
  kept := by simp

theorem cons {p : Placement} (hp : p = .continues ∨ p = .body) (line : Line)
    (h : Keeps placed lines) : Keeps ((p, line) :: placed) (line :: lines) where
  lines := by rw [List.map_cons, h.lines]
  kept := by
    intro q hq
    rcases List.mem_cons.1 hq with rfl | hq
    · exact hp
    · exact h.kept q hq

theorem append (h : Keeps placed lines) (h' : Keeps later ms) :
    Keeps (placed ++ later) (lines ++ ms) where
  lines := by rw [List.map_append, h.lines, h'.lines]
  kept := by
    intro p hp
    rcases List.mem_append.1 hp with hp | hp
    · exact h.kept p hp
    · exact h'.kept p hp

/-- Kept lines continue the block that is open before them. -/
theorem gather_append (h : Keeps placed lines) (later : List (Placement × Line)) :
    gather (placed ++ later) = (lines ++ (gather later).1, (gather later).2) := by
  induction placed generalizing lines with
  | nil =>
    obtain rfl := h.lines
    rfl
  | cons p placed ih =>
    obtain ⟨q, line⟩ := p
    obtain rfl := h.lines
    have hrest := ih ⟨rfl, fun r hr => h.kept r (List.mem_cons_of_mem _ hr)⟩
    rw [List.cons_append, gather_cons, hrest]
    rcases h.kept (q, line) List.mem_cons_self with hq | hq
    all_goals
      simp only at hq
      subst hq
      rfl

end Block.Keeps

namespace Line

theorem oldWidth_write (line : BodyLine) : oldWidth line.write = line.oldWidth := by
  cases line <;> rfl

theorem newWidth_write (line : BodyLine) : newWidth line.write = line.newWidth := by
  cases line <;> rfl

theorem isBody_write (line : BodyLine) : isBody line.write = true := by
  cases line <;> rfl

/-- A line that the header of a command line can hold: it is not blank and has no mark of its own,
or it is a notice about binary files. -/
def InHeader (line : Line) : Prop :=
  (Mark.ofLine line = .other ∨ Mark.ofLine line = .binary) ∧ isBlank line = false

theorem inHeader_remark (l : RemarkLine) : InHeader l.line := by
  obtain ⟨remark, text⟩ := l
  cases remark <;> exact ⟨.inl rfl, rfl⟩

theorem inHeader_header (header : CommandHeader) (alteration : Alteration) :
    ∀ line ∈ header.lines alteration, InHeader line := by
  intro line hl
  rw [CommandHeader.lines, List.mem_append, List.mem_append] at hl
  rcases hl with (hl | hl) | hl
  · obtain ⟨l, -, rfl⟩ := List.mem_map.1 hl
    exact inHeader_remark l
  · cases alteration with
    | modified path => simp [CommandHeader.modeLines] at hl
    | renamed old new ne => simp [CommandHeader.modeLines] at hl
    | added path =>
      obtain rfl := List.mem_singleton.1 hl
      exact ⟨.inl rfl, rfl⟩
    | deleted path =>
      obtain rfl := List.mem_singleton.1 hl
      exact ⟨.inl rfl, rfl⟩
  · obtain ⟨l, -, rfl⟩ := List.mem_map.1 hl
    exact inHeader_remark l

theorem inHeader_binary (rest : List Char) : InHeader ("Binary files ".toList ++ rest) := by
  have hm : Mark.ofLine ("Binary files ".toList ++ rest) =
      if isBinaryNotice ("Binary files ".toList ++ rest) then .binary else .other := rfl
  refine ⟨?_, rfl⟩
  rw [hm]
  split
  · exact .inr rfl
  · exact .inl rfl

end Line

namespace Scan

open ScanState

/-- The body of a hunk is placed up to the last note behind it. -/
theorem Run.body {s : ScanState} {body : List BodyLine} (hi : s.inside = true)
    (ho : s.oldLeft = BodyLine.oldLength body) (hn : s.newLeft = BodyLine.newLength body) :
    ∃ placed, (∀ next, Run s placed next { s with oldLeft := 0, newLeft := 0 }) ∧
      Block.Keeps placed (body.map BodyLine.write) := by
  induction body generalizing s with
  | nil =>
    have hs : { s with oldLeft := 0, newLeft := 0 } = s := by
      cases s
      simp_all [BodyLine.oldLength, BodyLine.newLength]
    exact ⟨[], fun next => hs ▸ .done s next, .nil⟩
  | cons line body ih =>
    rw [BodyLine.oldLength_cons] at ho
    rw [BodyLine.newLength_cons] at hn
    cases hb : s.inBody with
    | true =>
      have hline (next : Option Line) :
          s.place line.write next = .ok (.body, s.consume line.write) :=
        place_eq_body_iff.2 ⟨hb, Line.isBody_write line, rfl⟩
      obtain ⟨placed, hrun, hkeeps⟩ := ih (s := s.consume line.write) hi
        (by simp only [consume, Line.oldWidth_write]; omega)
        (by simp only [consume, Line.newWidth_write]; omega)
      exact ⟨(.body, line.write) :: placed, fun next => .step (hline _) (hrun next),
        .cons (.inr rfl) _ hkeeps⟩
    | false =>
      -- No side lacks lines, so the line is a note.
      have hl : ¬ (0 < s.oldLeft ∨ 0 < s.newLeft) := by
        intro hl
        simp [inBody_iff.2 ⟨hi, hl⟩] at hb
      have hx : s.Exhausted := ⟨by omega, by omega⟩
      have hnote : line.isNote = true := BodyLine.isNote_of_widths (by omega) (by omega)
      cases line with
      | note text =>
        have hline (next : Option Line) : s.place (BodyLine.write (.note text)) next =
            .ok (.continues, s) := place_of_outside hx (.noteKept rfl hi)
        obtain ⟨placed, hrun, hkeeps⟩ := ih hi (by simpa [BodyLine.oldWidth] using ho)
          (by simpa [BodyLine.newWidth] using hn)
        exact ⟨_ :: placed, fun next => .step (hline _) (hrun next), .cons (.inl rfl) _ hkeeps⟩
      | _ => cases hnote

/-- A hunk is placed in the open block. -/
theorem Run.hunk {s : ScanState} (hi : s.inside = true) (hx : s.Exhausted) (h : WrittenHunk) :
    ∃ placed, (∀ next, Run s placed next
        { s with gitHeader := false, hadHunk := true, oldLeft := 0, newLeft := 0 }) ∧
      Block.Keeps placed h.lines := by
  have hheader := HunkHeader.ofLine?_write h.oldWritten h.newWritten h.title.1
  have ho := (HunkSide.span_eq_ok_iff.1 h.oldSpan).2
  have hn := (HunkSide.span_eq_ok_iff.1 h.newSpan).2
  have hline (next : Option Line) : s.place (h.header.write h.title.1) next = .ok (.continues,
      { s with
        gitHeader := false
        hadHunk := true
        oldLeft := h.hunk.old.length
        newLeft := h.hunk.new.length }) :=
    place_of_outside hx (.hunk rfl hheader hi ho hn)
  obtain ⟨placed, hrun, hkeeps⟩ := Run.body
    (s := { s with
      gitHeader := false
      hadHunk := true
      oldLeft := h.hunk.old.length
      newLeft := h.hunk.new.length })
    hi (congrArg Nat.cast h.oldLength.symm) (congrArg Nat.cast h.newLength.symm)
  exact ⟨_ :: placed, fun next => .step (hline _) (hrun next), .cons (.inl rfl) _ hkeeps⟩

/-- Hunks are placed one after the other. -/
theorem Run.hunks {s : ScanState} (hi : s.inside = true) (hx : s.Exhausted)
    (hg : s.gitHeader = false) (hunks : List WrittenHunk) :
    ∃ placed t, (∀ next, Run s placed next t) ∧
      Block.Keeps placed (hunks.flatMap WrittenHunk.lines) ∧ t.Exhausted ∧ t.gitHeader = false := by
  induction hunks generalizing s with
  | nil => exact ⟨[], s, fun next => .done s next, .nil, hx, hg⟩
  | cons h hunks ih =>
    obtain ⟨placed, hrun, hkeeps⟩ := Run.hunk hi hx h
    obtain ⟨later, t, hrest, hlater, ht, htg⟩ := ih
      (s := { s with gitHeader := false, hadHunk := true, oldLeft := 0, newLeft := 0 })
      hi ⟨Int.le_refl 0, Int.le_refl 0⟩ rfl
    exact ⟨placed ++ later, t, fun next => (hrun _).append (hrest next), hkeeps.append hlater, ht,
      htg⟩

/-- The lines of a header are placed in the block that its command line opened. -/
theorem Run.header {s : ScanState} (hi : s.inside = true) (hg : s.gitHeader = true)
    (hh : s.hadHunk = false) (hx : s.Exhausted) {lines : List Line}
    (h : ∀ line ∈ lines, Line.InHeader line) :
    ∃ placed, (∀ next, Run s placed next s) ∧ Block.Keeps placed lines := by
  induction lines with
  | nil => exact ⟨[], fun next => .done s next, .nil⟩
  | cons line lines ih =>
    obtain ⟨placed, hrun, hkeeps⟩ := ih fun other hm => h other (List.mem_cons_of_mem _ hm)
    obtain ⟨hm, hb⟩ := h line List.mem_cons_self
    have hplace (next : Option Line) : s.place line next = .ok (.continues, s) := by
      refine place_of_outside hx (.otherKept ?_ hi hb (by simp [hh]) (by simp [hh]))
      rcases hm with hm | hm
      · exact .inl hm
      · exact .inr ⟨hm, hg⟩
    exact ⟨_ :: placed, fun next => .step (hplace _) (hrun next), .cons (.inl rfl) _ hkeeps⟩

theorem heralds_targetLine (new : List Char) : Heralds (some (Mark.targetMark ++ new)) := rfl

/-- Path lines in a header are placed in its block and end the header. -/
theorem Run.paths_of_header {s : ScanState} (hi : s.inside = true) (hg : s.gitHeader = true)
    (hx : s.Exhausted) (old new : List Char) (next : Option Line) :
    Run s [(.continues, Mark.sourceMark ++ old), (.continues, Mark.targetMark ++ new)] next
      { s with gitHeader := false, expectTarget := false } := by
  have hs : s.place (Mark.sourceMark ++ old) (some (Mark.targetMark ++ new)) =
      .ok (.continues, { s with gitHeader := false, expectTarget := true }) :=
    place_of_outside hx (.sourceKept rfl (heralds_targetLine new) hi hg)
  have ht : ScanState.place { s with gitHeader := false, expectTarget := true }
      (Mark.targetMark ++ new) next =
      .ok (.continues, { s with gitHeader := false, expectTarget := false }) :=
    place_of_outside hx (.target rfl rfl hi)
  exact .step hs (.step ht (.done _ next))

/-- Path lines outside a header open a block. -/
theorem Run.paths_of_plain {s : ScanState} (hg : (s.inside && s.gitHeader) = false)
    (hx : s.Exhausted) (alteration : Alteration) (next : Option Line) :
    Run s [(.opens, alteration.sourceLine), (.continues, alteration.targetLine)] next
      { s with inside := true, gitHeader := false, expectTarget := false, hadHunk := false } := by
  have hs : s.place alteration.sourceLine (some alteration.targetLine) = .ok (.opens,
      { s with inside := true, gitHeader := false, expectTarget := true, hadHunk := false }) :=
    place_of_outside hx (.sourceOpens rfl (heralds_targetLine alteration.newSide) hg)
  have ht : ScanState.place
      { s with inside := true, gitHeader := false, expectTarget := true, hadHunk := false }
      alteration.targetLine next = .ok (.continues,
      { s with inside := true, gitHeader := false, expectTarget := false, hadHunk := false }) :=
    place_of_outside hx (.target rfl rfl rfl)
  exact .step hs (.step ht (.done _ next))

/-- What comes after the header of a command line is placed in its block. Only hunks end the
header. -/
theorem Run.content {s : ScanState} (hi : s.inside = true) (hg : s.gitHeader = true)
    (hh : s.hadHunk = false) (hx : s.Exhausted) (alteration : Alteration) (content : Content) :
    ∃ placed t, (∀ next, Run s placed next t) ∧
      Block.Keeps placed (FileEntry.contentLines alteration content) ∧ t.Exhausted ∧
      (t.gitHeader = true →
        ∀ header, (FileEntry.command alteration header content).endsInHeader = true) := by
  cases content with
  | nothing => exact ⟨[], s, fun next => .done s next, .nil, hx, fun _ _ => rfl⟩
  | binary old new =>
    have hlines : ∀ line ∈ FileEntry.contentLines alteration (.binary old new),
        Line.InHeader line := by
      intro line hl
      obtain rfl := List.mem_singleton.1 hl
      simp only [List.append_assoc]
      exact Line.inHeader_binary _
    obtain ⟨placed, hrun, hkeeps⟩ := Run.header hi hg hh hx hlines
    exact ⟨placed, s, hrun, hkeeps, hx, fun _ _ => rfl⟩
  | hunks hunks =>
    obtain ⟨placed, t, hrun, hkeeps, ht, htg⟩ := Run.hunks
      (s := { s with gitHeader := false, expectTarget := false }) hi hx rfl hunks
    have hpaths (next : Option Line) := Run.paths_of_header hi hg hx
      alteration.oldSide alteration.newSide next
    exact ⟨_ :: _ :: placed, t, fun next => (hpaths _).append (hrun next),
      .cons (.inl rfl) _ (.cons (.inl rfl) _ hkeeps), ht, by simp [htg]⟩

/-- An entry is placed in a block of its own. Only an entry that ends in its header leaves a header
to come back to. -/
theorem Run.entry {s : ScanState} (hx : s.Exhausted) (entry : FileEntry)
    (hp : entry.isPlain = true → (s.inside && s.gitHeader) = false) :
    ∃ first placed lines t, entry.lines = first :: lines ∧ Block.Keeps placed lines ∧
      (∀ next, Run s ((.opens, first) :: placed) next t) ∧ t.Exhausted ∧
      (t.gitHeader = true → entry.endsInHeader = true) := by
  cases entry with
  | plain alteration hunks =>
    obtain ⟨placed, t, hrun, hkeeps, ht, htg⟩ := Run.hunks (s := { s with
      inside := true, gitHeader := false, expectTarget := false, hadHunk := false })
      rfl hx rfl hunks
    have hpaths (next : Option Line) := Run.paths_of_plain (hp rfl) hx alteration next
    exact ⟨_, _ :: placed, _, t, rfl, .cons (.inl rfl) _ hkeeps,
      fun next => (hpaths _).append (hrun next), ht, by simp [htg]⟩
  | command alteration header content =>
    have hcommand (next : Option Line) : s.place alteration.commandLine next = .ok (.opens,
        { s with inside := true, gitHeader := true, hadHunk := false }) :=
      place_of_outside hx (.command rfl)
    obtain ⟨before, hheader, hbefore⟩ := Run.header (s := { s with
      inside := true, gitHeader := true, hadHunk := false }) rfl rfl rfl hx
      (Line.inHeader_header header alteration)
    obtain ⟨placed, t, hrun, hkeeps, ht, htg⟩ := Run.content (s := { s with
      inside := true, gitHeader := true, hadHunk := false }) rfl rfl rfl hx alteration content
    exact ⟨_, before ++ placed, _, t, rfl, hbefore.append hkeeps,
      fun next => .step (hcommand _) ((hheader _).append (hrun next)), ht,
      fun hg => htg hg header⟩

/-- The entries of a diff are placed in one block each. -/
theorem Run.entries {entries : List FileEntry} (hsep : FileEntry.Separated entries)
    {s : ScanState} (hx : s.Exhausted)
    (hp : ∀ entry ∈ entries.head?, entry.isPlain = true → (s.inside && s.gitHeader) = false) :
    ∃ placed t, Run s placed none t ∧ placed.map Prod.snd = entries.flatMap FileEntry.lines ∧
      Block.gather placed = ([], entries.map FileEntry.lines) := by
  induction entries generalizing s with
  | nil => exact ⟨[], s, .done s none, rfl, rfl⟩
  | cons entry entries ih =>
    obtain ⟨first, placed, lines, t, hl, hkeeps, hrun, ht, htg⟩ :=
      Run.entry hx entry (hp entry rfl)
    obtain ⟨hnext, htail⟩ := List.isChain_cons.1 hsep
    have hready : ∀ next ∈ entries.head?, next.isPlain = true →
        (t.inside && t.gitHeader) = false := by
      intro next hn hplain
      have hends : ¬ t.gitHeader = true := fun hg => hnext next hn ⟨htg hg, hplain⟩
      simp [hends]
    obtain ⟨later, u, hrest, hlines, hgather⟩ := ih htail ht hready
    refine ⟨(.opens, first) :: placed ++ later, u, (hrun _).append hrest, ?_, ?_⟩
    · rw [List.map_append, List.map_cons, hkeeps.lines, hlines, List.flatMap_cons, hl]
    · rw [List.cons_append, Block.gather_cons, hkeeps.gather_append, hgather, List.append_nil,
        List.map_cons, hl]
      rfl

end Scan
end DiffReview
