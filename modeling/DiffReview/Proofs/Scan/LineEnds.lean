import DiffReview.Proofs.Scan.Invariant
import DiffReview.Proofs.Text.LineEnds

/-!
# Scanning lines with carriage returns

A carriage return at the end of a line changes neither the place of the line nor the state behind
it. So lines that end alike are placed alike, and their blocks have lines that end alike.
-/
namespace DiffReview

/-- The two lines are placed alike and end alike. -/
def Placement.EndsAlike (p q : Placement × Line) : Prop := q.1 = p.1 ∧ p.2.EndsAlike q.2

namespace ScanState

theorem consume_return (s : ScanState) (line : Line) :
    s.consume (line ++ ['\r']) = s.consume line := by
  rw [consume, consume, Line.oldWidth_return, Line.newWidth_return]

/-- A carriage return does not change the place of a line. -/
theorem place_return (s : ScanState) (line : Line) (next : Option Line) :
    s.place (line ++ ['\r']) next = s.place line next := by
  have hhunk (s : ScanState) : s.placeHunk (line ++ ['\r']) = s.placeHunk line := by
    rw [placeHunk, placeHunk, HunkHeader.ofLine?_return]
  have hother (s : ScanState) : s.placeOther (line ++ ['\r']) = s.placeOther line := by
    cases line with
    | nil => simp [placeOther, Line.isBlank]
    | cons c text =>
      unfold placeOther
      rw [Line.isBlank_return, Line.isSignature_return]
      rfl
  unfold place placeOutside
  rw [Line.isBody_return, consume_return, Mark.ofLine_return, hhunk, hother]

theorem heralds_of_endsAlike {line other : Line} (h : line.EndsAlike other) :
    Heralds (some other) ↔ Heralds (some line) := by
  have hs := h.congr (f := (Line.startsWith · Mark.targetMark))
    fun line => Line.startsWith_return (by decide) line
  exact Eq.congr hs rfl

end ScanState

namespace Scan

/-- A run goes over lines that end alike in the same way. -/
theorem Run.endsAlike {s t : ScanState} {placed other : List (Placement × Line)}
    {next : Option Line} (h : Run s placed next t)
    (ha : List.Forall₂ Placement.EndsAlike placed other) : Run s other next t := by
  induction h generalizing other with
  | done =>
    cases ha
    exact .done _ _
  | @step s t u p line later next hp _ ih =>
    cases ha with
    | @cons _ q _ rest hq hrest =>
      obtain ⟨q, line'⟩ := q
      obtain ⟨rfl, hl⟩ := hq
      have hnext : ScanState.Heralds (upcoming rest next) ↔
          ScanState.Heralds (upcoming later next) := by
        cases hrest with
        | nil => exact Iff.rfl
        | cons hq => exact ScanState.heralds_of_endsAlike hq.2
      have hplace : s.place line' (upcoming rest next) = .ok (q, t) := by
        rw [ScanState.place_congr hnext, ← hp]
        exact hl.congr (f := (s.place · (upcoming later next)))
          fun line => ScanState.place_return s line _
      exact .step hplace (ih hrest)

/-- Lines that end like placed lines are placed with them. -/
theorem exists_endsAlike {placed : List (Placement × Line)} {lines : List Line}
    (h : List.Forall₂ Line.EndsAlike (placed.map Prod.snd) lines) :
    ∃ other, other.map Prod.snd = lines ∧ List.Forall₂ Placement.EndsAlike placed other := by
  induction placed generalizing lines with
  | nil =>
    cases h
    exact ⟨[], rfl, .nil⟩
  | cons p placed ih =>
    cases h with
    | @cons _ line _ _ hl hrest =>
      obtain ⟨other, rfl, hother⟩ := ih hrest
      exact ⟨(p.1, line) :: other, rfl, .cons ⟨rfl, hl⟩ hother⟩

end Scan

namespace Block

/-- The lines of two blocks end alike. -/
abbrev EndsAlike (block other : Block) : Prop := List.Forall₂ Line.EndsAlike block other

/-- Lines that are placed alike and end alike are gathered in blocks that end alike. -/
theorem endsAlike_gather {placed other : List (Placement × Line)}
    (h : List.Forall₂ Placement.EndsAlike placed other) :
    List.Forall₂ Line.EndsAlike (gather placed).1 (gather other).1 ∧
    List.Forall₂ EndsAlike (gather placed).2 (gather other).2 := by
  induction h with
  | nil => exact ⟨.nil, .nil⟩
  | @cons p q _ _ hq _ ih =>
    obtain ⟨p, line⟩ := p
    obtain ⟨q, line'⟩ := q
    obtain ⟨rfl, hl⟩ := hq
    obtain ⟨hfirst, hblocks⟩ := ih
    cases q with
    | opens => exact ⟨.nil, .cons (.cons hl hfirst) hblocks⟩
    | continues => exact ⟨.cons hl hfirst, hblocks⟩
    | body => exact ⟨.cons hl hfirst, hblocks⟩
    | skipped => exact ⟨hfirst, hblocks⟩
    | closes => exact ⟨hfirst, hblocks⟩

end Block
end DiffReview
