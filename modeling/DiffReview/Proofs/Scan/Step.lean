import DiffReview.Diff.Scan
import Mathlib.Data.List.Forall2

/-!
# Steps of the scanner

Everything that one line can do to the state of the scanner is listed once, by the mark of the
line, and each placement is one of these cases. Two facts follow from the list and carry the rest:
the invariant of the states between two lines, and the irrelevance of what a state still remembers
of blocks that are over.
-/
namespace DiffReview
namespace ScanState

theorem inBody_iff {s : ScanState} :
    s.inBody = true ↔ s.inside = true ∧ (0 < s.oldLeft ∨ 0 < s.newLeft) := by
  simp [inBody]

@[simp] theorem inside_leaveBody (s : ScanState) : s.leaveBody.inside = s.inside := by
  unfold leaveBody; split <;> rfl

@[simp] theorem gitHeader_leaveBody (s : ScanState) : s.leaveBody.gitHeader = s.gitHeader := by
  unfold leaveBody; split <;> rfl

@[simp] theorem expectTarget_leaveBody (s : ScanState) :
    s.leaveBody.expectTarget = s.expectTarget := by
  unfold leaveBody; split <;> rfl

@[simp] theorem hadHunk_leaveBody (s : ScanState) : s.leaveBody.hadHunk = s.hadHunk := by
  unfold leaveBody; split <;> rfl

theorem leaveBody_of_not_inBody {s : ScanState} (h : s.inBody = false) : s.leaveBody = s := by
  simp [leaveBody, h]

/-- Neither side of a hunk lacks lines. -/
def Exhausted (s : ScanState) : Prop := s.oldLeft ≤ 0 ∧ s.newLeft ≤ 0

theorem not_inBody_of_exhausted {s : ScanState} (h : s.Exhausted) : s.inBody = false := by
  obtain ⟨ho, hn⟩ := h
  simp only [inBody, Bool.and_eq_false_iff, Bool.or_eq_false_iff, decide_eq_false_iff_not]
  exact Or.inr ⟨by omega, by omega⟩

/-- The next line is the target line that a source line was placed for. -/
def Heralds (next : Option Line) : Prop :=
  next.any (Line.startsWith · Mark.targetMark) = true

/-- A line that is waited for has the mark of a target line. -/
theorem mark_of_heralds {line : Line} (h : Heralds (some line)) : Mark.ofLine line = .target := by
  have hs : line.startsWith Mark.targetMark = true := h
  obtain ⟨rest, rfl⟩ := Line.exists_of_startsWith hs
  rfl

/-- What a line does that is not in the body of a hunk. A notice about binary files that stands in
the header of a command line is placed like a line without a mark. -/
inductive Outside (s : ScanState) (line : Line) (next : Option Line) :
    Placement → ScanState → Prop
  | noteKept (hm : Mark.ofLine line = .note) (hi : s.inside = true) :
      Outside s line next .continues s
  | noteSkipped (hm : Mark.ofLine line = .note) (hi : s.inside = false) :
      Outside s line next .skipped s
  | hunk {header : HunkHeader} {old new : Nat} (hm : Mark.ofLine line = .hunk)
      (hh : HunkHeader.ofLine? line = some header) (hi : s.inside = true)
      (ho : header.old.lengthValue = .ok old) (hn : header.new.lengthValue = .ok new) :
      Outside s line next .continues
        { s with gitHeader := false, hadHunk := true, oldLeft := old, newLeft := new }
  | command (hm : Mark.ofLine line = .command) :
      Outside s line next .opens { s with inside := true, gitHeader := true, hadHunk := false }
  | sourceKept (hm : Mark.ofLine line = .source) (ht : Heralds next) (hi : s.inside = true)
      (hg : s.gitHeader = true) :
      Outside s line next .continues { s with gitHeader := false, expectTarget := true }
  | sourceOpens (hm : Mark.ofLine line = .source) (ht : Heralds next)
      (hg : (s.inside && s.gitHeader) = false) :
      Outside s line next .opens
        { s with inside := true, gitHeader := false, expectTarget := true, hadHunk := false }
  | sourceSkipped (hm : Mark.ofLine line = .source) (ht : ¬ Heralds next)
      (hi : s.inside = false) : Outside s line next .skipped s
  | target (hm : Mark.ofLine line = .target) (he : s.expectTarget = true)
      (hi : s.inside = true) :
      Outside s line next .continues { s with expectTarget := false }
  | binaryOpens (hm : Mark.ofLine line = .binary) (hg : s.gitHeader = false) :
      Outside s line next .opens { s with inside := true, hadHunk := false }
  | otherSkipped (hm : Mark.ofLine line = .other ∨ Mark.ofLine line = .binary ∧ s.gitHeader = true)
      (hs : s.inside = false ∨ Line.isBlank line = true) : Outside s line next .skipped s
  | signature (hm : Mark.ofLine line = .other ∨ Mark.ofLine line = .binary ∧ s.gitHeader = true)
      (hi : s.inside = true) (hb : Line.isBlank line = false) (hh : s.hadHunk = true)
      (hs : Line.isSignature line = true) :
      Outside s line next .closes { s with inside := false }
  | otherKept (hm : Mark.ofLine line = .other ∨ Mark.ofLine line = .binary ∧ s.gitHeader = true)
      (hi : s.inside = true) (hb : Line.isBlank line = false)
      (hs : (s.hadHunk && Line.isSignature line) = false)
      (hl : (s.hadHunk && line.head?.any fun c => c = ' ' || c = '+' || c = '-') = false) :
      Outside s line next .continues s

theorem Outside.eq_of_skipped {s t : ScanState} {line : Line} {next : Option Line}
    (h : Outside s line next .skipped t) : t = s := by
  cases h <;> rfl

theorem Outside.inside_of_continues {s t : ScanState} {line : Line} {next : Option Line}
    (h : Outside s line next .continues t) : t.inside = true := by
  cases h <;> assumption

theorem Outside.inside_of_closes {s t : ScanState} {line : Line} {next : Option Line}
    (h : Outside s line next .closes t) : t.inside = false := by
  cases h
  rfl

/-- An opening line is no hunk header, and no hunk of its block has come yet. -/
theorem Outside.of_opens {s t : ScanState} {line : Line} {next : Option Line}
    (h : Outside s line next .opens t) :
    Mark.ofLine line ≠ .hunk ∧ t.inside = true ∧ t.hadHunk = false := by
  cases h with
  | command hm => exact ⟨by simp [hm], rfl, rfl⟩
  | sourceOpens hm => exact ⟨by simp [hm], rfl, rfl⟩
  | binaryOpens hm => exact ⟨by simp [hm], rfl, rfl⟩

theorem placeOther_eq_ok_iff {s t : ScanState} {line : Line} {next : Option Line} {p : Placement}
    (hm : Mark.ofLine line = .other ∨ Mark.ofLine line = .binary ∧ s.gitHeader = true) :
    s.placeOther line = .ok (p, t) ↔ Outside s line next p t := by
  constructor
  · intro h
    unfold placeOther at h
    split at h
    · rename_i hs
      cases h
      exact .otherSkipped hm (by simpa using hs)
    rename_i hs
    obtain ⟨hi, hb⟩ : s.inside = true ∧ Line.isBlank line = false := by simpa using hs
    split at h
    · rename_i hh
      obtain ⟨hh, hs⟩ : s.hadHunk = true ∧ Line.isSignature line = true := by simpa using hh
      cases h
      exact .signature hm hi hb hh hs
    rename_i hs
    split at h
    · cases h
    rename_i hl
    cases h
    exact .otherKept hm hi hb (by simpa using hs) (by simpa using hl)
  · intro h
    cases h with
    | otherSkipped _ hs => rcases hs with hs | hs <;> simp [placeOther, hs]
    | signature _ hi hb hh hs => simp [placeOther, hi, hb, hh, hs]
    | otherKept _ hi hb hs hl => simp only [placeOther, hi, hb, hs, hl]; rfl
    | _ => simp_all

theorem placeSource_eq_ok_iff {s t : ScanState} {line : Line} {next : Option Line} {p : Placement}
    (hm : Mark.ofLine line = .source) :
    s.placeSource next = .ok (p, t) ↔ Outside s line next p t := by
  constructor
  · intro h
    unfold placeSource at h
    split at h
    · rename_i ht
      split at h
      · rename_i hg
        obtain ⟨hi, hg⟩ : s.inside = true ∧ s.gitHeader = true := by simpa using hg
        cases h
        exact .sourceKept hm ht hi hg
      · rename_i hg
        cases h
        exact .sourceOpens hm ht (by simpa using hg)
    · rename_i ht
      split at h
      · cases h
      · rename_i hi
        cases h
        exact .sourceSkipped hm ht (by simpa using hi)
  · intro h
    cases h with
    | sourceKept _ ht hi hg => simp [placeSource, show Option.any _ _ = _ from ht, hi, hg]
    | sourceOpens _ ht hg => simp [placeSource, show Option.any _ _ = _ from ht, hg]
    | sourceSkipped _ ht hi => simp [placeSource, show ¬ Option.any _ _ = _ from ht, hi]
    | _ => simp_all

theorem placeHunk_eq_ok_iff {s t : ScanState} {line : Line} {next : Option Line} {p : Placement}
    (hm : Mark.ofLine line = .hunk) :
    s.placeHunk line = .ok (p, t) ↔ Outside s line next p t := by
  constructor
  · intro h
    unfold placeHunk at h
    split at h
    · cases h
    rename_i header hh
    split at h
    · rename_i hi
      split at h
      · cases h
      · cases h
      · rename_i old new ho hn
        cases h
        exact .hunk hm hh hi ho hn
    · cases h
  · intro h
    cases h with
    | hunk _ hh hi ho hn => simp [placeHunk, hh, hi, ho, hn]
    | _ => simp_all

theorem placeTarget_eq_ok_iff {s t : ScanState} {line : Line} {next : Option Line} {p : Placement}
    (hm : Mark.ofLine line = .target) :
    s.placeTarget = .ok (p, t) ↔ Outside s line next p t := by
  constructor
  · intro h
    unfold placeTarget at h
    split at h
    · rename_i he
      obtain ⟨he, hi⟩ : s.expectTarget = true ∧ s.inside = true := by simpa using he
      cases h
      exact .target hm he hi
    · cases h
  · intro h
    cases h <;> simp_all [placeTarget]

/-- The list of cases is complete, and each case arises. -/
theorem placeOutside_eq_ok_iff {s t : ScanState} {line : Line} {next : Option Line}
    {p : Placement} : s.placeOutside line next = .ok (p, t) ↔ Outside s line next p t := by
  unfold placeOutside
  cases hm : Mark.ofLine line with
  | hunk => exact placeHunk_eq_ok_iff hm
  | source => exact placeSource_eq_ok_iff hm
  | other => exact placeOther_eq_ok_iff (.inl hm)
  | target => exact placeTarget_eq_ok_iff hm
  | note =>
    constructor
    · intro h
      cases h
      by_cases hi : s.inside = true
      · rw [if_pos hi]; exact .noteKept hm hi
      · rw [if_neg hi]; exact .noteSkipped hm (by simpa using hi)
    · intro h
      cases h <;> simp_all
  | command =>
    constructor
    · intro h
      cases h
      exact .command hm
    · intro h
      cases h <;> simp_all
  | binary =>
    by_cases hg : s.gitHeader = true
    · simpa [hg] using placeOther_eq_ok_iff (.inr ⟨hm, hg⟩)
    · constructor
      · intro h
        cases (if_neg hg).symm.trans h
        exact .binaryOpens hm (by simpa using hg)
      · intro h
        cases h <;> simp_all

/-- A line in the body of a hunk is counted; every other line ends a body that is short and is
placed by its mark. -/
theorem place_eq_ok_iff {s t : ScanState} {line : Line} {next : Option Line} {p : Placement} :
    s.place line next = .ok (p, t) ↔
      s.inBody = true ∧ Line.isBody line = true ∧ p = .body ∧ t = s.consume line ∨
      (s.inBody && Line.isBody line) = false ∧ Outside s.leaveBody line next p t := by
  unfold place
  split
  · rename_i h
    obtain ⟨hb, hl⟩ : s.inBody = true ∧ Line.isBody line = true := by simpa using h
    constructor
    · intro h
      cases h
      exact .inl ⟨hb, hl, rfl, rfl⟩
    · rintro (⟨-, -, rfl, rfl⟩ | ⟨h, -⟩)
      · rfl
      · simp [hb, hl] at h
  · rename_i h
    rw [placeOutside_eq_ok_iff]
    constructor
    · intro ho
      exact .inr ⟨by simpa using h, ho⟩
    · rintro (⟨hb, hl, -⟩ | ⟨-, ho⟩)
      · simp [hb, hl] at h
      · exact ho

/-- A line is placed in a body exactly when a hunk lacks lines and it can be one of them. -/
theorem place_eq_body_iff {s t : ScanState} {line : Line} {next : Option Line} :
    s.place line next = .ok (.body, t) ↔
      s.inBody = true ∧ Line.isBody line = true ∧ t = s.consume line := by
  rw [place_eq_ok_iff]
  constructor
  · rintro (⟨hb, hl, -, rfl⟩ | ⟨-, ho⟩)
    · exact ⟨hb, hl, rfl⟩
    · cases ho
  · rintro ⟨hb, hl, rfl⟩
    exact .inl ⟨hb, hl, rfl, rfl⟩

theorem place_of_outside {s t : ScanState} {line : Line} {next : Option Line} {p : Placement}
    (h : s.Exhausted) (ho : Outside s line next p t) : s.place line next = .ok (p, t) := by
  have hb : s.inBody = false := not_inBody_of_exhausted h
  exact place_eq_ok_iff.2 (.inr ⟨by simp [hb], by rwa [leaveBody_of_not_inBody hb]⟩)

/-- A skipped line changes nothing. -/
theorem eq_of_place_skipped {s t : ScanState} {line : Line} {next : Option Line}
    (h : s.place line next = .ok (.skipped, t)) : t = s := by
  rcases place_eq_ok_iff.1 h with ⟨-, -, hp, -⟩ | ⟨hb, ho⟩
  · cases hp
  · cases hs : s.inBody with
    | false =>
      rw [leaveBody_of_not_inBody hs] at ho
      exact ho.eq_of_skipped
    | true =>
      -- Only a blank line is skipped in a block, and in a body it is counted.
      have hi : s.inside = true := (inBody_iff.1 hs).1
      cases ho with
      | otherSkipped _ hl =>
        have hl : Line.isBlank line = true := by simpa [hi] using hl
        simp [hs, Line.isBody_of_isBlank hl] at hb
      | _ => simp_all

/-- Where no block is open a line opens one or is skipped. -/
theorem opens_or_skipped_of_not_inside {s t : ScanState} {line : Line} {next : Option Line}
    {p : Placement} (hi : s.inside = false) (h : s.place line next = .ok (p, t)) :
    p = .opens ∨ p = .skipped := by
  rcases place_eq_ok_iff.1 h with ⟨hb, -⟩ | ⟨-, ho⟩
  · simp [inBody, hi] at hb
  · cases ho <;> simp_all

end ScanState
end DiffReview
