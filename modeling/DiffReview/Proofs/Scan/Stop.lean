import DiffReview.Proofs.Scan.Opener

/-!
# Where a scan stops

A scan stops at a line that cannot be placed in the state to which the lines before it lead. These
lines alone are scanned to their end, since none of them waits for the line that stopped the scan.
What comes behind that line does not matter, unless it is a source line, which cannot be placed
because no target line follows.
-/
namespace DiffReview

namespace ScanState

variable {s t : ScanState} {line : Line} {next other : Option Line} {p : Placement}

/-- Only a source line is placed by what comes next. -/
theorem place_of_mark_ne_source (hm : Mark.ofLine line ≠ .source) (s : ScanState)
    (next other : Option Line) : s.place line next = s.place line other := by
  unfold place placeOutside
  cases h : Mark.ofLine line <;> simp_all

/-- A source line cannot be placed in an open block that no target line continues. -/
theorem placeSource_eq_error_iff {stop : Stop ScanFault} : s.placeSource next = .error stop ↔
    s.inside = true ∧ ¬ Heralds next ∧ stop = .fault .sourceWithoutTarget := by
  constructor
  · intro h
    unfold placeSource at h
    split at h
    · split at h <;> cases h
    · rename_i hn
      split at h
      · rename_i hi
        cases h
        exact ⟨hi, hn, rfl⟩
      · cases h
  · rintro ⟨hi, hn, rfl⟩
    simp [placeSource, show ¬ Option.any _ _ = _ from hn, hi]

/-- A line that cannot be placed cannot be placed in front of other lines either. For a source line
these must not begin with a target line. -/
theorem place_eq_error_congr {fault : ScanFault} (h : s.place line next = .error (.fault fault))
    (ho : fault = .sourceWithoutTarget → ¬ Heralds other) :
    s.place line other = .error (.fault fault) := by
  by_cases hm : Mark.ofLine line = .source
  · have hsource : ¬ Heralds next ∧ fault = .sourceWithoutTarget := by
      unfold place placeOutside at h
      split at h
      · cases h
      · rw [hm] at h
        obtain ⟨-, hn, hf⟩ := placeSource_eq_error_iff.1 h
        exact ⟨hn, by simpa using hf⟩
    rw [← h]
    exact (place_congr (iff_of_false hsource.1 (ho hsource.2)) s line).symm
  · rw [← h]
    exact place_of_mark_ne_source hm s other next

/-- A blank line can always be placed. -/
theorem not_isBlank_of_place {stop : Stop ScanFault} (h : s.place line next = .error stop) :
    Line.isBlank line = false := by
  by_contra hb
  have hb : Line.isBlank line = true := by simpa using hb
  have hm : Mark.ofLine line = .other := Line.mark_of_isBlank hb
  unfold place at h
  split at h
  · cases h
  · simp [placeOutside, hm, placeOther, hb] at h

/-- The target line that is waited for can be placed. -/
theorem not_expectTarget_of_place {stop : Stop ScanFault} (hc : s.Coherent (some line))
    (h : s.place line next = .error stop) : s.expectTarget = false := by
  by_contra he
  have he : s.expectTarget = true := by simpa using he
  obtain ⟨hi, -, hx, hn⟩ := hc.expects he
  have ho : s.Outside line next .continues { s with expectTarget := false } :=
    .target (mark_of_heralds hn) he hi
  rw [place_of_outside hx ho] at h
  cases h

/-- Only a source line whose target line comes next waits for it. -/
theorem place_of_not_expectTarget (h : s.place line next = .ok (p, t))
    (ht : t.expectTarget = false) : s.place line none = .ok (p, t) := by
  by_cases hm : Mark.ofLine line = .source
  · rw [← h]
    rcases place_eq_ok_iff.1 h with ⟨hb, hl, -⟩ | ⟨-, ho⟩
    · simp [place, hb, hl]
    · have hn : ¬ Heralds next := by
        cases ho with
        | sourceSkipped _ hn => exact hn
        | _ => simp_all
      exact place_congr (iff_of_false (by simp [Heralds]) hn) s line
  · rw [← h]
    exact place_of_mark_ne_source hm s none next

end ScanState

namespace Scan

/-- A run that waits for no target line is a run to the end of its lines. -/
theorem Run.to_end {s t : ScanState} {placed : List (Placement × Line)} {next : Option Line}
    (h : Run s placed next t) (ht : t.expectTarget = false) : Run s placed none t := by
  induction h with
  | done => exact .done _ _
  | @step _ _ _ _ _ later _ hp hr ih =>
    refine .step ?_ (ih ht)
    cases later with
    | nil =>
      cases hr
      exact ScanState.place_of_not_expectTarget hp ht
    | cons => exact hp

/-- A run up to a line that cannot be placed is a run to the end of its lines. -/
theorem Run.to_stop {t : ScanState} {placed : List (Placement × Line)} {line : Line}
    {next : Option Line} {stop : Stop ScanFault} (h : Run {} placed (some line) t)
    (hp : t.place line next = .error stop) : Run {} placed none t :=
  h.to_end (ScanState.not_expectTarget_of_place (h.coherent (ScanState.coherent_initial _)) hp)

/-- A scan that stops is a run up to a line that cannot be placed. -/
theorem exists_run_of_stop {s : ScanState} {lines : List Line} {stop : Stop ScanFault}
    {line : Line} (h : (after s lines).stop = some (stop, line)) :
    ∃ t rest, lines = (after s lines).placed.map Prod.snd ++ line :: rest ∧
      Run s (after s lines).placed (some line) t ∧ t.place line rest.head? = .error stop := by
  induction lines generalizing s with
  | nil => simp at h
  | cons first rest ih =>
    cases hp : s.place first rest.head? with
    | error stop' =>
      rw [after_cons_of_error hp] at h ⊢
      cases h
      exact ⟨s, rest, rfl, .done s _, hp⟩
    | ok r =>
      obtain ⟨p, u⟩ := r
      rw [after_cons_of_ok hp] at h ⊢
      obtain ⟨t, last, hl, hr, hstop⟩ := ih h
      refine ⟨t, last, by rw [List.map_cons, List.cons_append, ← hl], .step ?_ hr, hstop⟩
      have hu : upcoming (after u rest).placed (some line) = rest.head? := by
        have hh := upcoming_head? (after u rest).placed (line :: last)
        rwa [← hl] at hh
      rw [hu, hp]

/-- A run up to a line that cannot be placed is all that is placed. -/
theorem Run.after_eq_of_error {s t : ScanState} {placed : List (Placement × Line)} {line : Line}
    {rest : List Line} {stop : Stop ScanFault} (h : Run s placed (some line) t)
    (hp : t.place line rest.head? = .error stop) :
    after s (placed.map Prod.snd ++ line :: rest) = ⟨placed, some (stop, line)⟩ := by
  have ha : after s (placed.map Prod.snd ++ line :: rest) = _ := Run.after_append h
  rw [ha, after_cons_of_error hp, List.append_nil]

end Scan
end DiffReview
