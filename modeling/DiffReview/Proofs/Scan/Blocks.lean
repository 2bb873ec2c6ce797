import DiffReview.Proofs.Scan.Invariant

/-!
# Blocks along a run

The block that is open after a run takes the lines that continue it, and no other block changes
any more. From a state in which no block is open, no line continues an earlier block, so the
blocks of two runs that meet there are put side by side.
-/
namespace DiffReview
namespace Block

/-- Blocks are put side by side when the later lines do not continue an earlier block. -/
theorem ofPlaced_append {first second : List (Placement × Line)} (h : (gather second).1 = []) :
    ofPlaced (first ++ second) = ofPlaced first ++ ofPlaced second := by
  have hg : gather (first ++ second) =
      ((gather first).1, (gather first).2 ++ (gather second).2) := by
    induction first with
    | nil => rw [List.nil_append, gather_nil, ← h]; rfl
    | cons p first ih =>
      rw [List.cons_append, gather_cons, gather_cons, ih]
      obtain ⟨q, line⟩ := p
      cases q <;> rfl
  rw [ofPlaced, hg]
  rfl

theorem ofPlaced_opens (line : Line) (later : List (Placement × Line)) :
    ofPlaced ((.opens, line) :: later) = (line :: (gather later).1) :: ofPlaced later := rfl

/-- The lines of the blocks are placed lines. -/
theorem mem_of_mem_ofPlaced {placed : List (Placement × Line)} {block : Block} {line : Line}
    (hb : block ∈ ofPlaced placed) (hl : line ∈ block) : line ∈ placed.map Prod.snd := by
  have hm : line ∈ (gather placed).1 ++ (gather placed).2.flatten :=
    List.mem_append_right _ (List.mem_flatten_of_mem hb hl)
  rw [flatten_gather] at hm
  obtain ⟨p, hp, rfl⟩ := List.mem_map.1 hm
  exact List.mem_map_of_mem (List.mem_of_mem_filter hp)

@[simp] theorem current_nil : current [] = [] := rfl

theorem current_append (placed : List (Placement × Line)) (p : Placement × Line) :
    current (placed ++ [p]) =
      match p.1 with
      | .opens => [p.2]
      | .continues => current placed ++ [p.2]
      | .body => current placed ++ [p.2]
      | .skipped => current placed
      | .closes => [] := by
  obtain ⟨q, line⟩ := p
  cases q <;> simp [current, extend]

/-- The lines placed so far end in the open block, which takes the lines that continue it. -/
structure Tracks (placed : List (Placement × Line)) (s : ScanState) : Prop where
  inside_iff : s.inside = true ↔ current placed ≠ []
  blocks : s.inside = true → ∃ earlier, ∀ later, ofPlaced (placed ++ later) =
    earlier ++ (current placed ++ (gather later).1) :: (gather later).2

theorem tracks_initial : Tracks [] {} where
  inside_iff := by simp
  blocks := by simp

namespace Tracks

variable {placed : List (Placement × Line)} {s t : ScanState} {line : Line}

theorem opens (ht : t.inside = true) : Tracks (placed ++ [(.opens, line)]) t where
  inside_iff := by simp [ht, current_append]
  blocks := by
    intro _
    refine ⟨ofPlaced placed, fun later => ?_⟩
    have hg : gather ((.opens, line) :: later) =
        ([], (line :: (gather later).1) :: (gather later).2) := rfl
    rw [List.append_assoc, List.singleton_append, ofPlaced_append (by rw [hg]), current_append]
    rw [show ofPlaced ((.opens, line) :: later) = _ from congrArg Prod.snd hg]
    rfl

theorem keeps (h : Tracks placed s) (hs : s.inside = true) (ht : t.inside = true)
    {p : Placement} (hp : p = .continues ∨ p = .body) : Tracks (placed ++ [(p, line)]) t := by
  have hc : current (placed ++ [(p, line)]) = current placed ++ [line] := by
    rcases hp with rfl | rfl <;> rw [current_append]
  have hg (later : List (Placement × Line)) : gather ((p, line) :: later) =
      (line :: (gather later).1, (gather later).2) := by
    rcases hp with rfl | rfl <;> rfl
  refine ⟨by simp [ht, hc], fun _ => ?_⟩
  obtain ⟨earlier, he⟩ := h.blocks hs
  refine ⟨earlier, fun later => ?_⟩
  rw [List.append_assoc, List.singleton_append, he, hg, hc]
  simp

theorem skips (h : Tracks placed s) (ht : t.inside = s.inside) :
    Tracks (placed ++ [(.skipped, line)]) t := by
  have hc : current (placed ++ [(.skipped, line)]) = current placed := by rw [current_append]
  refine ⟨by rw [ht, hc]; exact h.inside_iff, fun hi => ?_⟩
  obtain ⟨earlier, he⟩ := h.blocks (ht ▸ hi)
  refine ⟨earlier, fun later => ?_⟩
  rw [List.append_assoc, List.singleton_append, he, hc]
  rfl

theorem closes (ht : t.inside = false) : Tracks (placed ++ [(.closes, line)]) t where
  inside_iff := by simp [ht, current_append]
  blocks := by simp [ht]

/-- Every step tracks the open block. -/
theorem place (h : Tracks placed s) {next : Option Line} {p : Placement}
    (hp : s.place line next = .ok (p, t)) : Tracks (placed ++ [(p, line)]) t := by
  rcases ScanState.place_eq_ok_iff.1 hp with ⟨hb, -, rfl, rfl⟩ | ⟨-, ho⟩
  · have hi : s.inside = true := (ScanState.inBody_iff.1 hb).1
    exact h.keeps hi (by simpa [ScanState.consume] using hi) (.inr rfl)
  · cases ho with
    | noteKept _ hi => exact h.keeps (by simpa using hi) (by simpa using hi) (.inl rfl)
    | noteSkipped => exact h.skips (by simp)
    | hunk _ _ hi => exact h.keeps (by simpa using hi) (by simpa using hi) (.inl rfl)
    | command => exact opens rfl
    | sourceKept _ _ hi => exact h.keeps (by simpa using hi) (by simpa using hi) (.inl rfl)
    | sourceOpens => exact opens rfl
    | sourceSkipped => exact h.skips (by simp)
    | target _ _ hi => exact h.keeps (by simpa using hi) (by simpa using hi) (.inl rfl)
    | binaryOpens => exact opens rfl
    | otherSkipped => exact h.skips (by simp)
    | signature => exact closes rfl
    | otherKept _ hi => exact h.keeps (by simpa using hi) (by simpa using hi) (.inl rfl)

end Tracks
end Block

namespace Scan

/-- Every run tracks the open block. -/
theorem Run.tracks {s t : ScanState} {before placed : List (Placement × Line)}
    {next : Option Line} (h : Run s placed next t) (h₀ : Block.Tracks before s) :
    Block.Tracks (before ++ placed) t :=
  Run.preserves (P := fun placed s _ => Block.Tracks placed s) (fun ht hp => ht.place hp) h
    before h₀

/-- From a state in which no block is open, no line continues one. -/
theorem Run.gather_fst_eq_nil {s t : ScanState} {placed : List (Placement × Line)}
    {next : Option Line} (h : Run s placed next t) (hi : s.inside = false) :
    (Block.gather placed).1 = [] := by
  induction h with
  | done => rfl
  | step hp _ ih =>
    rcases ScanState.opens_or_skipped_of_not_inside hi hp with rfl | rfl
    · rfl
    · obtain rfl := ScanState.eq_of_place_skipped hp
      exact ih hi

end Scan
end DiffReview
