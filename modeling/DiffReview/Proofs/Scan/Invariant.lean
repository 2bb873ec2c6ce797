import DiffReview.Proofs.Scan.Run

/-!
# The invariant of the scanner

Between two lines the state is coherent: a block is never in its header and past a hunk at once,
nothing is expected and no hunk lacks lines while no block is open, and a target line is expected
only when it is the line that comes next, and never past a hunk. Two states that differ only in
what they remember of blocks that are over place all later lines alike.
-/
namespace DiffReview
namespace ScanState

/-- What holds of the state before the line that comes next. -/
structure Coherent (s : ScanState) (next : Option Line) : Prop where
  header : s.gitHeader = true → s.hadHunk = false
  closed : s.inside = false → s.gitHeader = false ∧ s.Exhausted
  expects : s.expectTarget = true →
    s.inside = true ∧ s.hadHunk = false ∧ s.Exhausted ∧ Heralds next

theorem coherent_initial (next : Option Line) : Coherent {} next where
  header := by simp
  closed := by simp [Exhausted]
  expects := by simp

/-- Outside hunk bodies no hunk of a coherent state lacks lines. -/
theorem exhausted_leaveBody {s : ScanState} {next : Option Line} (h : s.Coherent next) :
    s.leaveBody.Exhausted := by
  by_cases hb : s.inBody = true
  · simp [leaveBody, hb, Exhausted]
  · have hb' : s.inBody = false := by simpa using hb
    rw [leaveBody_of_not_inBody hb']
    cases hi : s.inside with
    | false => exact (h.closed hi).2
    | true =>
      have hl : ¬ (0 < s.oldLeft ∨ 0 < s.newLeft) := fun hl => hb (inBody_iff.2 ⟨hi, hl⟩)
      exact ⟨by omega, by omega⟩

theorem coherent_leaveBody {s : ScanState} {next : Option Line} (h : s.Coherent next) :
    s.leaveBody.Coherent next where
  header := by simpa using h.header
  closed := by
    intro hi
    exact ⟨by simpa using (h.closed (by simpa using hi)).1, exhausted_leaveBody h⟩
  expects := by
    intro he
    obtain ⟨hi, hh, -, hn⟩ := h.expects (by simpa using he)
    exact ⟨by simpa using hi, by simpa using hh, exhausted_leaveBody h, hn⟩

/-- A line that a coherent state waits for is the expected target line. -/
theorem expectTarget_of_mark {s : ScanState} {line : Line} (h : s.Coherent (some line))
    (hm : Mark.ofLine line ≠ .target) : s.expectTarget = false := by
  by_contra he
  obtain ⟨-, -, -, hn⟩ := h.expects (by simpa using he)
  exact hm (mark_of_heralds hn)

/-- Placing a line outside hunk bodies keeps the state coherent. -/
theorem Outside.coherent {s t : ScanState} {line : Line} {next : Option Line} {p : Placement}
    (h : s.Coherent (some line)) (hx : s.Exhausted) (ho : Outside s line next p t) :
    t.Coherent next := by
  have hw : Mark.ofLine line ≠ .target → s.expectTarget = false := expectTarget_of_mark h
  cases ho with
  | noteKept hm hi => exact ⟨h.header, h.closed, by simp [hw (by simp [hm])]⟩
  | noteSkipped hm hi => exact ⟨h.header, h.closed, by simp [hw (by simp [hm])]⟩
  | hunk hm hh hi ho hn => exact ⟨by simp, by simp [hi], by simp [hw (by simp [hm])]⟩
  | command hm => exact ⟨by simp, by simp, by simp [hw (by simp [hm])]⟩
  | sourceKept hm ht hi hg => exact ⟨by simp, by simp [hi], fun _ => ⟨hi, h.header hg, hx, ht⟩⟩
  | sourceOpens hm ht hg => exact ⟨by simp, by simp, fun _ => ⟨rfl, rfl, hx, ht⟩⟩
  | sourceSkipped hm ht hi => exact ⟨h.header, h.closed, by simp [hw (by simp [hm])]⟩
  | target hm he hi => exact ⟨h.header, by simp [hi], by simp⟩
  | binaryOpens hm hg => exact ⟨by simp [hg], by simp, by simp [hw (by simp [hm])]⟩
  | otherSkipped hm hs =>
    have he := hw (by rcases hm with hm | ⟨hm, -⟩ <;> simp [hm])
    exact ⟨h.header, h.closed, by simp [he]⟩
  | signature hm hi hb hh hs =>
    have he := hw (by rcases hm with hm | ⟨hm, -⟩ <;> simp [hm])
    have hg : s.gitHeader = false := by
      by_contra hg
      simpa [hh] using h.header (by simpa using hg)
    exact ⟨h.header, fun _ => ⟨hg, hx⟩, by simp [he]⟩
  | otherKept hm hi hb hs hl =>
    have he := hw (by rcases hm with hm | ⟨hm, -⟩ <;> simp [hm])
    exact ⟨h.header, h.closed, by simp [he]⟩

/-- Every step keeps the state coherent. -/
theorem Coherent.place {s t : ScanState} {line : Line} {next : Option Line} {p : Placement}
    (h : s.Coherent (some line)) (hp : s.place line next = .ok (p, t)) : t.Coherent next := by
  rcases place_eq_ok_iff.1 hp with ⟨hb, -, -, rfl⟩ | ⟨-, ho⟩
  · have hi : s.inside = true := (inBody_iff.1 hb).1
    have he : s.expectTarget = false := by
      by_contra he
      have hx := (h.expects (by simpa using he)).2.2.1
      simp [not_inBody_of_exhausted hx] at hb
    exact ⟨h.header, by simp [consume, hi], by simp [consume, he]⟩
  · exact Outside.coherent (coherent_leaveBody h) (exhausted_leaveBody h) ho

/-- The line that comes next counts only as the target line of a source line. -/
theorem place_congr {next other : Option Line} (h : Heralds next ↔ Heralds other) (s : ScanState)
    (line : Line) : s.place line next = s.place line other := by
  have hs : s.leaveBody.placeSource next = s.leaveBody.placeSource other := by
    by_cases hn : Heralds next
    · have ho := h.1 hn
      simp only [placeSource, show Option.any _ _ = _ from hn, show Option.any _ _ = _ from ho]
    · have ho := fun ho => hn (h.2 ho)
      simp only [placeSource, show ¬ Option.any _ _ = _ from hn, show ¬ Option.any _ _ = _ from ho]
  unfold place placeOutside
  rw [hs]

/-- Outside hunk bodies only a hunk header changes what a hunk lacks. -/
theorem Outside.left {s t : ScanState} {line : Line} {next : Option Line} {p : Placement}
    (ho : Outside s line next p t) :
    Mark.ofLine line = .hunk ∨ t.oldLeft = s.oldLeft ∧ t.newLeft = s.newLeft := by
  cases ho with
  | hunk hm => exact .inl hm
  | _ => exact .inr ⟨rfl, rfl⟩

theorem Outside.mark_of_inBody {s t : ScanState} {line : Line} {next : Option Line}
    {p : Placement} (hx : s.Exhausted) (ho : Outside s line next p t) (ht : t.inBody = true) :
    Mark.ofLine line = .hunk := by
  rcases ho.left with hm | ⟨hl, hr⟩
  · exact hm
  · have hx' : t.Exhausted := by rwa [Exhausted, hl, hr]
    simp [not_inBody_of_exhausted hx'] at ht

/-- A step into the body of a hunk does not look at the line that comes next. -/
theorem place_of_inBody {s t : ScanState} {line : Line} {next : Option Line} {p : Placement}
    (h : s.Coherent (some line)) (hp : s.place line next = .ok (p, t)) (ht : t.inBody = true)
    (other : Option Line) : s.place line other = .ok (p, t) := by
  rcases place_eq_ok_iff.1 hp with hb | ⟨hb, ho⟩
  · exact place_eq_ok_iff.2 (.inl hb)
  · have hm := ho.mark_of_inBody (exhausted_leaveBody h) ht
    have hh := (placeHunk_eq_ok_iff hm).2 ho
    exact place_eq_ok_iff.2 (.inr ⟨hb, (placeHunk_eq_ok_iff hm).1 hh⟩)

/-- No later line can tell the states apart: hunks are remembered only while a block is open, and
what is lacking only while it is positive. -/
structure Agree (s t : ScanState) : Prop where
  inside : s.inside = t.inside
  gitHeader : s.gitHeader = t.gitHeader
  expectTarget : s.expectTarget = t.expectTarget
  hadHunk : s.inside = true → s.hadHunk = t.hadHunk
  left : s.oldLeft = t.oldLeft ∧ s.newLeft = t.newLeft ∨ s.Exhausted ∧ t.Exhausted

/-- Two answers of the scanner that no later line can tell apart. -/
inductive Alike : Except (Stop ScanFault) (Placement × ScanState) →
    Except (Stop ScanFault) (Placement × ScanState) → Prop
  | error (e : Stop ScanFault) : Alike (.error e) (.error e)
  | ok (p : Placement) {s t : ScanState} (h : Agree s t) : Alike (.ok (p, s)) (.ok (p, t))

namespace Agree

theorem inBody {s t : ScanState} (h : Agree s t) : s.inBody = t.inBody := by
  rcases h.left with ⟨ho, hn⟩ | ⟨hs, ht⟩
  · simp only [ScanState.inBody, h.inside, ho, hn]
  · rw [not_inBody_of_exhausted hs, not_inBody_of_exhausted ht]

theorem leaveBody {s t : ScanState} (h : Agree s t) : Agree s.leaveBody t.leaveBody := by
  have hb := h.inBody
  cases hs : s.inBody with
  | false =>
    rw [hs] at hb
    rwa [leaveBody_of_not_inBody hs, leaveBody_of_not_inBody hb.symm]
  | true =>
    rw [hs] at hb
    exact ⟨by simpa using h.inside, by simpa using h.gitHeader, by simpa using h.expectTarget,
      by simpa using h.hadHunk, .inl (by simp [ScanState.leaveBody, hs, ← hb])⟩

theorem placeHunk {s t : ScanState} (h : Agree s t) (line : Line) :
    Alike (s.placeHunk line) (t.placeHunk line) := by
  unfold ScanState.placeHunk
  split
  · exact .error _
  · rw [← h.inside]
    split
    · split
      · exact .error _
      · exact .error _
      · exact .ok _ ⟨rfl, rfl, h.expectTarget, fun _ => rfl, .inl ⟨rfl, rfl⟩⟩
    · exact .error _

theorem placeSource {s t : ScanState} (h : Agree s t) (next : Option Line) :
    Alike (s.placeSource next) (t.placeSource next) := by
  unfold ScanState.placeSource
  rw [← h.inside, ← h.gitHeader]
  split
  · split
    · exact .ok _ ⟨rfl, rfl, rfl, h.hadHunk, h.left⟩
    · exact .ok _ ⟨rfl, rfl, rfl, fun _ => rfl, h.left⟩
  · split
    · exact .error _
    · exact .ok _ h

theorem placeTarget {s t : ScanState} (h : Agree s t) : Alike s.placeTarget t.placeTarget := by
  unfold ScanState.placeTarget
  rw [← h.inside, ← h.expectTarget]
  split
  · exact .ok _ ⟨rfl, h.gitHeader, rfl, h.hadHunk, h.left⟩
  · exact .error _

theorem placeOther {s t : ScanState} (h : Agree s t) (line : Line) :
    Alike (s.placeOther line) (t.placeOther line) := by
  unfold ScanState.placeOther
  cases hi : s.inside with
  | false => simpa [← h.inside, hi] using Alike.ok _ h
  | true =>
    rw [← h.inside, ← h.hadHunk hi, hi]
    split
    · exact .ok _ h
    · split
      · exact .ok _ ⟨rfl, h.gitHeader, h.expectTarget, by simp, h.left⟩
      · split
        · exact .error _
        · exact .ok _ h

theorem placeOutside {s t : ScanState} (h : Agree s t) (line : Line) (next : Option Line) :
    Alike (s.placeOutside line next) (t.placeOutside line next) := by
  unfold ScanState.placeOutside
  cases Mark.ofLine line with
  | note => rw [← h.inside]; exact .ok _ h
  | hunk => exact h.placeHunk line
  | command => exact .ok _ ⟨rfl, rfl, h.expectTarget, fun _ => rfl, h.left⟩
  | source => exact h.placeSource next
  | target => exact h.placeTarget
  | other => exact h.placeOther line
  | binary =>
    by_cases hg : s.gitHeader = true
    · simpa [← h.gitHeader, hg] using h.placeOther line
    · simp only [← h.gitHeader, hg]
      exact .ok _ ⟨rfl, rfl, h.expectTarget, fun _ => rfl, h.left⟩

/-- States that agree place every line alike. -/
theorem place {s t : ScanState} (h : Agree s t) (line : Line) (next : Option Line) :
    Alike (s.place line next) (t.place line next) := by
  unfold ScanState.place
  rw [← h.inBody]
  split
  · rename_i hb
    refine .ok _ ⟨h.inside, h.gitHeader, h.expectTarget, h.hadHunk, .inl ?_⟩
    rcases h.left with ⟨ho, hn⟩ | ⟨hs, -⟩
    · exact ⟨by simp only [consume, ho], by simp only [consume, hn]⟩
    · simp [not_inBody_of_exhausted hs] at hb
  · exact h.leaveBody.placeOutside line next

end Agree
end ScanState

namespace Scan

/-- States that agree scan all later lines alike. -/
theorem after_eq_of_agree {s t : ScanState} (h : s.Agree t) (lines : List Line) :
    after s lines = after t lines := by
  induction lines generalizing s t with
  | nil => rfl
  | cons line rest ih =>
    have ha := h.place line rest.head?
    generalize hs : s.place line rest.head? = a at ha
    generalize ht : t.place line rest.head? = b at ha
    cases ha with
    | error e => rw [after_cons_of_error hs, after_cons_of_error ht]
    | ok p h' => rw [after_cons_of_ok hs, after_cons_of_ok ht, ih h']

/-- A run depends on the line after it only in whether that is a target line. -/
theorem Run.congr {s t : ScanState} {placed : List (Placement × Line)} {next other : Option Line}
    (hn : ScanState.Heralds next ↔ ScanState.Heralds other) (h : Run s placed next t) :
    Run s placed other t := by
  induction h with
  | done => exact .done _ _
  | @step _ _ _ _ _ later _ hp _ ih =>
    refine .step ?_ (ih hn)
    rw [← hp]
    cases later with
    | nil => exact ScanState.place_congr hn.symm _ _
    | cons => rfl

/-- Every run from a coherent state ends in one. -/
theorem Run.coherent {s t : ScanState} {placed : List (Placement × Line)} {next : Option Line}
    (h : Run s placed next t) (h₀ : s.Coherent (upcoming placed next)) : t.Coherent next :=
  Run.preserves (P := fun _ s next => s.Coherent next) (fun hc hp => hc.place hp) h [] h₀

/-- A run into the body of a hunk does not depend on the line after it. -/
theorem Run.of_inBody {s t : ScanState} {placed : List (Placement × Line)} {next : Option Line}
    (h : Run s placed next t) (h₀ : s.Coherent (upcoming placed next)) (ht : t.inBody = true)
    (other : Option Line) : Run s placed other t := by
  induction h with
  | done => exact .done _ _
  | @step _ _ _ _ _ later _ hp hr ih =>
    refine .step ?_ (ih (h₀.place hp) ht)
    cases later with
    | nil =>
      cases hr
      exact ScanState.place_of_inBody h₀ hp ht other
    | cons => exact hp

end Scan
end DiffReview
