import DiffReview.Proofs.Scan.Blocks
import Mathlib.Data.List.TakeWhile

/-!
# What the placements tell of a run

Whether a block is open, and whether the open block has had a hunk, can be read off the placements
of a run without its states. The lines since the last one that closed or opened a block decide it.
-/
namespace DiffReview
namespace Scan

/-- Since the last line that closed a block no line has opened one. -/
def NoneOpen (placed : List (Placement × Line)) : Prop :=
  .opens ∉ (placed.map Prod.fst).reverse.takeWhile (· ≠ .closes)

/-- Since the last line that opened a block there has been a hunk header. -/
def HunkSeen (placed : List (Placement × Line)) : Prop :=
  ∃ p ∈ placed.reverse.takeWhile (·.1 ≠ .opens), p.1 = .continues ∧ Mark.ofLine p.2 = .hunk

instance (placed : List (Placement × Line)) : Decidable (NoneOpen placed) :=
  inferInstanceAs (Decidable (_ ∉ _))

instance (placed : List (Placement × Line)) : Decidable (HunkSeen placed) :=
  inferInstanceAs (Decidable (∃ p ∈ placed.reverse.takeWhile (·.1 ≠ .opens),
    p.1 = .continues ∧ Mark.ofLine p.2 = .hunk))

theorem noneOpen_append (placed : List (Placement × Line)) (p : Placement) (line : Line) :
    NoneOpen (placed ++ [(p, line)]) ↔ p = .closes ∨ p ≠ .opens ∧ NoneOpen placed := by
  cases p <;> simp [NoneOpen]

theorem hunkSeen_append (placed : List (Placement × Line)) (p : Placement) (line : Line) :
    HunkSeen (placed ++ [(p, line)]) ↔
      p ≠ .opens ∧ (p = .continues ∧ Mark.ofLine line = .hunk ∨ HunkSeen placed) := by
  cases p <;> simp [HunkSeen]

/-- Where no line closes a block, none is open only if no line opens one. -/
theorem not_noneOpen {placed : List (Placement × Line)} {line : Line}
    (ho : (.opens, line) ∈ placed) (hc : ∀ p ∈ placed, p.1 ≠ .closes) : ¬ NoneOpen placed := by
  have hall : (placed.map Prod.fst).reverse.takeWhile (· ≠ .closes) =
      (placed.map Prod.fst).reverse := by
    rw [List.takeWhile_eq_self_iff]
    intro p hp
    obtain ⟨q, hq, rfl⟩ := List.mem_map.1 (List.mem_reverse.1 hp)
    simpa using hc q hq
  rw [NoneOpen, hall, not_not, List.mem_reverse]
  exact List.mem_map_of_mem ho

/-- The state after placed lines knows whether a block is open and has had a hunk. -/
structure Recalls (placed : List (Placement × Line)) (s : ScanState) : Prop where
  noneOpen_iff : NoneOpen placed ↔ s.inside = false
  hunkSeen_iff : s.inside = true → (HunkSeen placed ↔ s.hadHunk = true)

theorem recalls_initial : Recalls [] {} where
  noneOpen_iff := by simp [NoneOpen]
  hunkSeen_iff := by simp

namespace Recalls

variable {placed : List (Placement × Line)} {s t : ScanState} {line : Line}

/-- A line that opens a block opens it without a hunk. -/
theorem opens (hi : t.inside = true) (hh : t.hadHunk = false) :
    Recalls (placed ++ [(.opens, line)]) t where
  noneOpen_iff := by simp [noneOpen_append, hi]
  hunkSeen_iff := by simp [hunkSeen_append, hh]

/-- A line that neither opens nor closes a block leaves everything as it is, but for a hunk
header. -/
theorem goes (h : Recalls placed s) {p : Placement} (ho : p ≠ .opens) (hc : p ≠ .closes)
    (hi : t.inside = s.inside)
    (hh : t.hadHunk = true ↔ p = .continues ∧ Mark.ofLine line = .hunk ∨ s.hadHunk = true) :
    Recalls (placed ++ [(p, line)]) t where
  noneOpen_iff := by simp [noneOpen_append, ho, hc, hi, h.noneOpen_iff]
  hunkSeen_iff := by
    intro hin
    rw [hunkSeen_append, hh, h.hunkSeen_iff (hi ▸ hin)]
    simp [ho]

/-- Every step keeps track of the open block and its hunks. -/
theorem place (h : Recalls placed s) {next : Option Line} {p : Placement}
    (hp : s.place line next = .ok (p, t)) : Recalls (placed ++ [(p, line)]) t := by
  rcases ScanState.place_eq_ok_iff.1 hp with ⟨-, -, rfl, rfl⟩ | ⟨-, ho⟩
  · exact h.goes (by simp) (by simp) rfl (by simp [ScanState.consume])
  · cases ho with
    | noteKept hm => exact h.goes (by simp) (by simp) (by simp) (by simp [hm])
    | noteSkipped => exact h.goes (by simp) (by simp) (by simp) (by simp)
    | hunk hm => exact h.goes (by simp) (by simp) (by simp) (by simp [hm])
    | command => exact opens rfl rfl
    | sourceKept hm => exact h.goes (by simp) (by simp) (by simp) (by simp [hm])
    | sourceOpens => exact opens rfl rfl
    | sourceSkipped => exact h.goes (by simp) (by simp) (by simp) (by simp)
    | target hm => exact h.goes (by simp) (by simp) (by simp) (by simp [hm])
    | binaryOpens => exact opens rfl rfl
    | otherSkipped => exact h.goes (by simp) (by simp) (by simp) (by simp)
    | signature => exact ⟨by simp [noneOpen_append], by simp⟩
    | otherKept hm =>
      refine h.goes (by simp) (by simp) (by simp) ?_
      rcases hm with hm | ⟨hm, -⟩ <;> simp [hm]

end Recalls

/-- Every run keeps track of the open block and its hunks. -/
theorem Run.recalls {t : ScanState} {placed : List (Placement × Line)} {next : Option Line}
    (h : Run {} placed next t) : Recalls placed t :=
  Run.preserves (P := fun placed s _ => Recalls placed s) (fun hr hp => hr.place hp) h []
    recalls_initial

end Scan
end DiffReview
