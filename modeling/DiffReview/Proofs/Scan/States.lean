import DiffReview.Proofs.Scan.Stop

/-!
# The state behind every line

Behind any number of lines of a text, whether the scan stops later or not, the state fits the lines
placed so far. An open block is the last one; a target line is waited for only behind a source line
in front of it, so a target line outside hunk bodies is placed there and nowhere else. And whatever
lines follow, only the open block takes any of them.
-/
namespace DiffReview

namespace Scan

/-- The line placed last is a source line outside hunk bodies. -/
def BehindSource (placed : List (Placement × Line)) : Prop :=
  ∃ p ∈ placed.getLast?, p.1 ≠ .body ∧ p.2.startsWith Mark.sourceMark = true

theorem behindSource_append (placed : List (Placement × Line)) (p : Placement) (line : Line) :
    BehindSource (placed ++ [(p, line)]) ↔
      p ≠ .body ∧ line.startsWith Mark.sourceMark = true := by
  simp [BehindSource]

end Scan

namespace ScanState

variable {s t : ScanState} {line : Line} {next : Option Line} {p : Placement}

/-- Only a source line in front of a target line leaves a target line to be waited for, and every
such line does. -/
theorem Outside.expectTarget_iff (h : s.Coherent (some line)) (ho : Outside s line next p t) :
    t.expectTarget = true ↔ Mark.ofLine line = .source ∧ Heralds next := by
  have hw : Mark.ofLine line ≠ .target → s.expectTarget = false := expectTarget_of_mark h
  cases ho with
  | sourceKept hm ht => simp [hm, ht]
  | sourceOpens hm ht => simp [hm, ht]
  | sourceSkipped hm ht => simp [hm, ht, hw]
  | target hm => simp [hm]
  | otherSkipped hm => rcases hm with hm | ⟨hm, -⟩ <;> simp [hm, hw]
  | signature hm => rcases hm with hm | ⟨hm, -⟩ <;> simp [hm, hw]
  | otherKept hm => rcases hm with hm | ⟨hm, -⟩ <;> simp [hm, hw]
  | noteKept hm => simp [hm, hw]
  | noteSkipped hm => simp [hm, hw]
  | hunk hm => simp [hm, hw]
  | command hm => simp [hm, hw]
  | binaryOpens hm => simp [hm, hw]

/-- Behind a line a target line is waited for exactly if the line is a source line outside hunk
bodies and a target line comes next. -/
theorem place_expectTarget_iff (h : s.Coherent (some line))
    (hp : s.place line next = .ok (p, t)) : t.expectTarget = true ↔
      (p ≠ .body ∧ line.startsWith Mark.sourceMark = true) ∧ Heralds next := by
  have hm : Mark.ofLine line = .source ↔ line.startsWith Mark.sourceMark = true :=
    ⟨Line.startsWith_of_mark_source, Line.mark_of_source⟩
  rcases place_eq_ok_iff.1 hp with ⟨hb, -, rfl, rfl⟩ | ⟨-, ho⟩
  · have he : s.expectTarget = false := by
      by_contra he
      have hx := (h.expects (by simpa using he)).2.2.1
      simp [not_inBody_of_exhausted hx] at hb
    simp [consume, he]
  · have hbody : p ≠ .body := by
      rintro rfl
      cases ho
    rw [ho.expectTarget_iff (coherent_leaveBody h), hm]
    simp [hbody]

/-- A target line outside hunk bodies is placed exactly if it is waited for. -/
theorem place_target_iff (h : s.Coherent (some line))
    (hm : line.startsWith Mark.targetMark = true) (hb : s.inBody = false) :
    (∃ p t, s.place line next = .ok (p, t)) ↔ s.expectTarget = true := by
  have hmark : Mark.ofLine line = .target := mark_of_heralds hm
  constructor
  · rintro ⟨p, t, hp⟩
    rcases place_eq_ok_iff.1 hp with ⟨hb', -⟩ | ⟨-, ho⟩
    · simp [hb] at hb'
    · cases ho with
      | target _ he => simpa using he
      | _ => simp_all
  · intro he
    obtain ⟨hi, -, hx, -⟩ := h.expects he
    exact ⟨_, _, place_of_outside hx (.target hmark he hi)⟩

end ScanState

namespace Scan

open ScanState

/-- Behind a run a target line is waited for exactly if it comes next behind a source line. -/
theorem Run.expectTarget_iff {t : ScanState} {placed : List (Placement × Line)}
    {next : Option Line} (h : Run {} placed next t) :
    t.expectTarget = true ↔ BehindSource placed ∧ Heralds next := by
  have hp := Run.preserves
    (P := fun placed s next => s.Coherent next ∧
      (s.expectTarget = true ↔ BehindSource placed ∧ Heralds next))
    (fun {before _ p line _ _} hc hp => ⟨hc.1.place hp, by
      rw [place_expectTarget_iff hc.1 hp, behindSource_append before p line]⟩) h []
    ⟨coherent_initial _, by simp [BehindSource]⟩
  exact hp.2

/-- The lines that a scan places are a run up to the rest of the lines. -/
theorem exists_run_placed (s : ScanState) (lines : List Line) : ∃ rest t,
    lines = (after s lines).placed.map Prod.snd ++ rest ∧
      Run s (after s lines).placed rest.head? t := by
  cases h : (after s lines).stop with
  | none =>
    obtain ⟨t, hr⟩ := run_of_stop_eq_none h
    exact ⟨[], t, by rw [List.append_nil, placed_lines_of_stop_eq_none h], hr⟩
  | some stop =>
    obtain ⟨t, rest, hl, hr, -⟩ := exists_run_of_stop h
    exact ⟨_, t, hl, hr⟩

/-- An open block is the last one, and takes the lines that continue it. -/
theorem Run.blocks_of_inside {s : ScanState} {placed : List (Placement × Line)}
    {next : Option Line} (h : Run {} placed next s) (hi : s.inside = true) :
    ∃ earlier, Block.ofPlaced placed = earlier ++ [Block.current placed] ∧
      ∀ later, Block.ofPlaced (placed ++ later) =
        earlier ++ (Block.current placed ++ (Block.gather later).1) :: Block.ofPlaced later := by
  have htr : Block.Tracks ([] ++ placed) s := h.tracks Block.tracks_initial
  obtain ⟨earlier, he⟩ := htr.blocks hi
  exact ⟨earlier, by simpa using he [], he⟩

/-- Over the lines that follow, the blocks stay as they are, but for the last one if it is open. -/
theorem Run.blocks_grow {s t : ScanState} {placed later : List (Placement × Line)}
    {next : Option Line} (h : Run {} placed (upcoming later next) s) (hl : Run s later next t)
    {i : Nat} {block : Block} (hb : (Block.ofPlaced placed)[i]? = some block) :
    ∃ more, (Block.ofPlaced (placed ++ later))[i]? = some (block ++ more) ∧
      (more ≠ [] → s.inside = true ∧ i + 1 = (Block.ofPlaced placed).length) := by
  have hlt : i < (Block.ofPlaced placed).length := (List.getElem?_eq_some_iff.1 hb).1
  cases hi : s.inside with
  | false =>
    refine ⟨[], ?_, by simp⟩
    rw [Block.ofPlaced_append (hl.gather_fst_eq_nil hi), List.getElem?_append_left hlt, hb,
      List.append_nil]
  | true =>
    obtain ⟨earlier, he, hgrow⟩ := h.blocks_of_inside hi
    rw [he, List.length_append, List.length_singleton] at hlt
    rw [hgrow, he]
    rw [he] at hb
    by_cases hearlier : i < earlier.length
    · rw [List.getElem?_append_left hearlier] at hb ⊢
      exact ⟨[], by rw [hb, List.append_nil], by simp⟩
    · obtain rfl : i = earlier.length := by omega
      obtain rfl : Block.current placed = block := by simpa using hb
      exact ⟨(Block.gather later).1, by simp, fun _ => ⟨rfl, by simp⟩⟩

/-- The state fits the lines placed so far and the lines that are left. -/
structure Fits (placed : List (Placement × Line)) (s : ScanState) (rest : List Line) : Prop where
  /-- The open block is the last of the blocks. -/
  inside : s.inside = true → (Block.ofPlaced placed).getLast? = some (Block.current placed)
  outside : s.inside = false → Block.current placed = []
  header : ¬ (s.hadHunk = true ∧ s.gitHeader = true)
  closed : s.inside = false →
    s.gitHeader = false ∧ s.expectTarget = false ∧ s.oldLeft ≤ 0 ∧ s.newLeft ≤ 0
  expects : s.expectTarget = true → BehindSource placed ∧ Heralds rest.head?
  /-- A target line outside hunk bodies is placed exactly if it stands behind a source line. -/
  target : ∀ line later, rest = line :: later → line.startsWith Mark.targetMark = true →
    s.inBody = false → ((∃ p t, s.place line later.head? = .ok (p, t)) ↔ BehindSource placed)

/-- After every run the state fits. -/
theorem Run.fits {s : ScanState} {placed : List (Placement × Line)} {rest : List Line}
    (h : Run {} placed rest.head? s) : Fits placed s rest := by
  have hc : s.Coherent rest.head? := h.coherent (coherent_initial _)
  refine ⟨fun hi => ?_, fun hi => ?_, ?_, fun hi => ?_, h.expectTarget_iff.1, ?_⟩
  · obtain ⟨earlier, he, -⟩ := h.blocks_of_inside hi
    rw [he, List.getLast?_concat]
  · have htr : Block.Tracks ([] ++ placed) s := h.tracks Block.tracks_initial
    by_contra hne
    simp [htr.inside_iff.2 hne] at hi
  · rintro ⟨hh, hg⟩
    simp [hc.header hg] at hh
  · refine ⟨(hc.closed hi).1, ?_, (hc.closed hi).2⟩
    by_contra he
    simp [(hc.expects (by simpa using he)).1] at hi
  · rintro line later rfl hm hb
    rw [place_target_iff hc hm hb, h.expectTarget_iff]
    exact and_iff_left hm

/-- The first lines of a text that are placed, as many as are asked for, or all if there are not so
many. -/
def placedFirst (text : String) (n : Nat) : List (Placement × Line) :=
  (ofLines (Text.lines text.toList)).placed.take n

/-- Behind every number of lines of a text the state fits, and over any number of further lines
every block stays at its place and as it is, but for the last one, which takes lines as long as it
is open. -/
theorem state_fits (text : String) (n : Nat) : ∃ rest s,
    Text.lines text.toList = (placedFirst text n).map Prod.snd ++ rest ∧
    Run {} (placedFirst text n) rest.head? s ∧ Fits (placedFirst text n) s rest ∧
    ∀ k i block, (Block.ofPlaced (placedFirst text n))[i]? = some block →
      ∃ more, (Block.ofPlaced (placedFirst text (n + k)))[i]? = some (block ++ more) ∧
        (more ≠ [] →
          s.inside = true ∧ i + 1 = (Block.ofPlaced (placedFirst text n)).length) := by
  obtain ⟨rest, t, hl, hr⟩ := exists_run_placed {} (Text.lines text.toList)
  unfold placedFirst ofLines
  generalize (after {} (Text.lines text.toList)).placed = placed at hl hr ⊢
  rw [← List.take_append_drop n placed] at hr
  obtain ⟨s, h₁, h₂⟩ := hr.of_append
  have hnext := upcoming_head? (placed.drop n) rest
  refine ⟨(placed.drop n).map Prod.snd ++ rest, s, ?_, hnext ▸ h₁, Run.fits (hnext ▸ h₁), ?_⟩
  · rw [← List.append_assoc, ← List.map_append, List.take_append_drop, hl]
  · intro k i block hb
    rw [← List.take_append_drop k (placed.drop n)] at h₁ h₂
    obtain ⟨u, h₃, -⟩ := h₂.of_append
    rw [upcoming_append] at h₁
    rw [List.take_add]
    exact h₁.blocks_grow h₃ hb

end Scan
end DiffReview
