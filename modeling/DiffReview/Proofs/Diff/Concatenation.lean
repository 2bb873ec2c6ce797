import DiffReview.Proofs.Diff.Accepted
import DiffReview.Proofs.Scan.Opener
import DiffReview.Proofs.Text.Whole

/-!
# Concatenation of diffs

What the scanner still knows at the end of an accepted diff of whole lines does not reach into a
diff put behind it: a command line opens a block whatever came before, and where no block is open
any diff may follow. So the files of both stand side by side, and a failure of the second diff is
the same failure.
-/
namespace DiffReview

namespace Scan

/-- Blank lines outside hunk bodies are skipped. -/
theorem after_blanks {s : ScanState} (hs : s.Exhausted) {blanks : List Line}
    (hb : ∀ line ∈ blanks, Line.isBlank line = true) (rest : List Line) :
    after s (blanks ++ rest) =
      ⟨blanks.map (.skipped, ·) ++ (after s rest).placed, (after s rest).stop⟩ := by
  induction blanks with
  | nil => rfl
  | cons line blanks ih =>
    have hl : Line.isBlank line = true := hb line (by simp)
    have hp : s.place line (blanks ++ rest).head? = .ok (.skipped, s) :=
      ScanState.place_of_outside hs (.otherSkipped (.inl (Line.mark_of_isBlank hl)) (.inr hl))
    rw [List.cons_append, after_cons_of_ok hp, ih fun m hm => hb m (by simp [hm])]
    rfl

/-- A command line opens a block, whatever came before it. -/
theorem after_command {s : ScanState} (hs : s.Exhausted) {blanks : List Line}
    (hb : ∀ line ∈ blanks, Line.isBlank line = true) {line : Line}
    (hm : Mark.ofLine line = .command) (rest : List Line) :
    ∃ later, (after s (blanks ++ line :: rest)).placed =
      blanks.map (.skipped, ·) ++ (.opens, line) :: later := by
  rw [after_blanks hs hb, after_cons_of_ok (ScanState.place_of_outside hs (.command hm))]
  exact ⟨_, rfl⟩

/-- The lines from a command line on are scanned alike from all states outside hunk bodies that
expect no target line. -/
theorem after_eq_of_command {s t : ScanState} (hs : s.Exhausted) (ht : t.Exhausted)
    (he : s.expectTarget = t.expectTarget) {blanks : List Line}
    (hb : ∀ line ∈ blanks, Line.isBlank line = true) {line : Line}
    (hm : Mark.ofLine line = .command) (rest : List Line) :
    after s (blanks ++ line :: rest) = after t (blanks ++ line :: rest) := by
  have ha : ScanState.Agree { s with inside := true, gitHeader := true, hadHunk := false }
      { t with inside := true, gitHeader := true, hadHunk := false } :=
    ⟨rfl, rfl, he, fun _ => rfl, .inr ⟨hs, ht⟩⟩
  rw [after_blanks hs hb, after_blanks ht hb,
    after_cons_of_ok (ScanState.place_of_outside hs (.command hm)),
    after_cons_of_ok (ScanState.place_of_outside ht (.command hm)), after_eq_of_agree ha]

/-- An accepted diff does not begin with a target line. -/
theorem not_heralds_of_run {t : ScanState} {placed : List (Placement × Line)}
    (h : Run {} placed none t) : ¬ ScanState.Heralds (placed.map Prod.snd).head? := by
  cases h with
  | done => simp [ScanState.Heralds]
  | step hp _ =>
    intro hh
    have hm : Mark.ofLine _ = .target := ScanState.mark_of_heralds hh
    simp [ScanState.place, ScanState.inBody, ScanState.leaveBody, ScanState.placeOutside, hm,
      ScanState.placeTarget] at hp

end Scan

namespace Block

/-- The lines before a block is opened are no part of the block that is open in the end. -/
theorem current_append_of_opens (before skipped later : List (Placement × Line)) (line : Line) :
    current (before ++ (skipped ++ (.opens, line) :: later)) =
      current (skipped ++ (.opens, line) :: later) := by
  simp [current, extend]

theorem gather_fst_of_opens (blanks : List Line) (line : Line)
    (later : List (Placement × Line)) :
    (gather (blanks.map (.skipped, ·) ++ (.opens, line) :: later)).1 = [] := by
  induction blanks with
  | nil => rfl
  | cons blank blanks ih => exact ih

end Block

namespace ParsedDiff

/-- When the second of two diffs is scanned as if it stood alone, the files of both are put side by
side. -/
theorem parse_append_of_scan {first second : String} {diff : ParsedDiff}
    (h : parse first = .ok diff)
    (hs : Scan.ofLines (Text.lines (first ++ second).toList) =
      ⟨(Scan.ofLines (Text.lines first.toList)).placed ++
        (Scan.ofLines (Text.lines second.toList)).placed,
        (Scan.ofLines (Text.lines second.toList)).stop⟩)
    (hg : (Block.gather (Scan.ofLines (Text.lines second.toList)).placed).1 = [])
    (hc : (Scan.ofLines (Text.lines second.toList)).stop ≠ none →
      Block.current ((Scan.ofLines (Text.lines first.toList)).placed ++
        (Scan.ofLines (Text.lines second.toList)).placed) =
      Block.current (Scan.ofLines (Text.lines second.toList)).placed) :
    parse (first ++ second) = (parse second).map fun later => ⟨diff.files ++ later.files⟩ := by
  obtain ⟨blocks, hb, hf⟩ := parse_eq_ok_iff.1 h
  have hm := mapM_eq_ok_iff.2 hf
  simp only [Block.split, Block.ofLines] at hb
  unfold parse Block.split Block.ofLines
  rw [hs]
  dsimp only
  cases hstop : (Scan.ofLines (Text.lines second.toList)).stop with
  | some stop =>
    have hcur := hc (by simp [hstop])
    obtain ⟨fault | e, line⟩ := stop
    · simp [Block.failureAt, hcur, Except.map]
    · simp [Block.failureAt, Except.map]
  | none =>
    cases hfirst : (Scan.ofLines (Text.lines first.toList)).stop with
    | some stop => simp [hfirst] at hb
    | none =>
      obtain rfl : Block.ofPlaced (Scan.ofLines (Text.lines first.toList)).placed = blocks := by
        simpa [hfirst] using hb
      simp only [Block.ofPlaced_append hg, List.mapM_append, hm]
      generalize (Block.ofPlaced _).mapM Block.fileChange = later
      cases later <;> rfl

/-- The scan of a diff comes to its end in a state outside hunk bodies. -/
structure EndsIn (text : String) (t : ScanState) : Prop where
  run : Scan.Run {} (Scan.ofLines (Text.lines text.toList)).placed none t
  lines : (Scan.ofLines (Text.lines text.toList)).placed.map Prod.snd = Text.lines text.toList
  exhausted : t.Exhausted
  coherent : t.Coherent none

theorem exists_endsIn {text : String} {diff : ParsedDiff} (h : parse text = .ok diff) :
    ∃ t, EndsIn text t := by
  obtain ⟨blocks, hb, hf⟩ := parse_eq_ok_iff.1 h
  obtain ⟨placed, t, hr, hl, rfl⟩ := Block.ofLines_eq_ok_iff.1 hb
  have hp : (Scan.ofLines (Text.lines text.toList)).placed = placed := by
    rw [← hl, Scan.ofLines, hr.after_eq]
  exact ⟨t, by rwa [hp], by rwa [hp], hr.exhausted hf, hr.coherent (ScanState.coherent_initial _)⟩

namespace EndsIn

variable {first : String} {t : ScanState}

theorem expectTarget (h : EndsIn first t) : t.expectTarget = false := by
  by_contra he
  simpa [ScanState.Heralds] using (h.coherent.expects (by simpa using he)).2.2.2

/-- No block is open in the end state when none is open after the placed lines. -/
theorem inside_of_current (h : EndsIn first t)
    (hc : Block.current (Scan.ofLines (Text.lines first.toList)).placed = []) :
    t.inside = false := by
  have htr := h.run.tracks Block.tracks_initial
  by_contra hi
  exact htr.inside_iff.1 (by simpa using hi) hc

/-- The scan goes on from the end state over the lines of a second text. -/
theorem scan_append (h : EndsIn first t) (hw : Text.Whole first.toList) {second : String}
    (hn : ¬ ScanState.Heralds (Text.lines second.toList).head?)
    (ha : Scan.after t (Text.lines second.toList) = Scan.ofLines (Text.lines second.toList)) :
    Scan.ofLines (Text.lines (first ++ second).toList) =
      ⟨(Scan.ofLines (Text.lines first.toList)).placed ++
        (Scan.ofLines (Text.lines second.toList)).placed,
        (Scan.ofLines (Text.lines second.toList)).stop⟩ := by
  have hr := h.run.congr (iff_of_false (by simp [ScanState.Heralds]) hn)
  have happ := hr.after_append
  rw [h.lines, ha] at happ
  rwa [String.toList_append, Text.lines_append hw]

end EndsIn

/-- The first line of a text that is not blank is a command line. -/
def StartsWithCommand (text : String) : Prop :=
  ∃ line, (Text.lines text.toList).find? (fun line => !line.isBlank) = some line ∧
    Line.startsWith line "diff ".toList = true

theorem parse_append_of_command {first second : String} {diff : ParsedDiff}
    (h : parse first = .ok diff) (hw : Text.Whole first.toList) (hs : StartsWithCommand second) :
    parse (first ++ second) = (parse second).map fun later => ⟨diff.files ++ later.files⟩ := by
  obtain ⟨t, ht⟩ := exists_endsIn h
  obtain ⟨line, hfind, hcmd⟩ := hs
  obtain ⟨-, blanks, rest, hlines, hblank⟩ := List.find?_eq_some_iff_append.1 hfind
  have hm : Mark.ofLine line = .command := Line.mark_of_command hcmd
  have hb : ∀ line ∈ blanks, Line.isBlank line = true := by simpa using hblank
  have hx : ({} : ScanState).Exhausted := ⟨Int.le_refl 0, Int.le_refl 0⟩
  obtain ⟨later, hlater⟩ := Scan.after_command hx hb hm rest
  have hp : (Scan.ofLines (Text.lines second.toList)).placed =
      blanks.map (.skipped, ·) ++ (.opens, line) :: later := by
    rw [hlines]
    exact hlater
  have hn : ¬ ScanState.Heralds (Text.lines second.toList).head? := by
    rw [hlines]
    cases blanks with
    | nil => exact fun hh => by simpa [hm] using ScanState.mark_of_heralds hh
    | cons blank _ =>
      have hbl := Line.mark_of_isBlank (hb blank (by simp))
      exact fun hh => by simpa [hbl] using ScanState.mark_of_heralds hh
  apply parse_append_of_scan h
  · apply ht.scan_append hw hn
    rw [hlines]
    exact Scan.after_eq_of_command ht.exhausted hx ht.expectTarget hb hm rest
  · rw [hp]
    exact Block.gather_fst_of_opens blanks line later
  · intro _
    rw [hp]
    exact Block.current_append_of_opens _ _ _ _

theorem parse_append_of_closed {first second : String} {diff later : ParsedDiff}
    (h : parse first = .ok diff) (hw : Text.Whole first.toList)
    (hc : Block.current (Scan.ofLines (Text.lines first.toList)).placed = [])
    (hl : parse second = .ok later) :
    parse (first ++ second) = .ok ⟨diff.files ++ later.files⟩ := by
  obtain ⟨t, ht⟩ := exists_endsIn h
  obtain ⟨t', ht'⟩ := exists_endsIn hl
  have hi : t.inside = false := ht.inside_of_current hc
  have ha : ScanState.Agree t {} :=
    ⟨hi, (ht.coherent.closed hi).1, ht.expectTarget, by simp [hi],
      .inr ⟨ht.exhausted, ⟨Int.le_refl 0, Int.le_refl 0⟩⟩⟩
  have hstop : (Scan.ofLines (Text.lines second.toList)).stop = none := by
    have he := ht'.run.after_eq
    rw [ht'.lines] at he
    rw [Scan.ofLines, he]
  rw [parse_append_of_scan h, hl]
  · rfl
  · apply ht.scan_append hw
    · rw [← ht'.lines]
      exact Scan.not_heralds_of_run ht'.run
    · exact Scan.after_eq_of_agree ha _
  · exact ht'.run.gather_fst_eq_nil rfl
  · simp [hstop]

/-- A diff of whole lines may be followed by blank lines and a command line, and, when it leaves no
block open, by any accepted diff. Its own files come first, and a failure after it is the failure
of the second diff alone. -/
theorem parse_append {first : String} {diff : ParsedDiff} (h : parse first = .ok diff)
    (hw : Text.Whole first.toList) (second : String) :
    (StartsWithCommand second →
      parse (first ++ second) = (parse second).map fun later => ⟨diff.files ++ later.files⟩) ∧
    (Block.current (Scan.ofLines (Text.lines first.toList)).placed = [] → ∀ later : ParsedDiff,
      parse second = .ok later → parse (first ++ second) = .ok ⟨diff.files ++ later.files⟩) :=
  ⟨parse_append_of_command h hw, fun hc _ hl => parse_append_of_closed h hw hc hl⟩

/-- A mailed patch whose lines look like headers, with its signature. -/
def mailed : String := "--- a/x\n+++ b/x\n@@ -1,2 +1 @@\n--- y\n-\n++++ z\n-- \n2.30\n"

/-- What the mailed patch says. -/
def mailedFile : FileChange :=
  ⟨"x", none, .modified, "Unknown", false, [⟨.removed, "-- y", some 1⟩,
    ⟨.removed, "", some 2⟩, ⟨.added, "+++ z", some 1⟩]⟩

/-- Behind the mailed patch, a broken diff fails as it does alone, and a diff with words of its own
in front is read. -/
theorem parse_append_mailed :
    parse mailed = .ok ⟨[mailedFile]⟩ ∧ Text.Whole mailed.toList ∧
    (StartsWithCommand "\r\n\ndiff --git a/y b/y\n@@ -1\n" ∧
      parse (mailed ++ "\r\n\ndiff --git a/y b/y\n@@ -1\n") =
        .error (.rejected ⟨.scan .malformedHunkHeader "@@ -1".toList,
          ["diff --git a/y b/y".toList, "@@ -1".toList]⟩)) ∧
    (Block.current (Scan.ofLines (Text.lines mailed.toList)).placed = [] ∧
      parse (mailed ++ "words\n--- /dev/null\n+++ b/y.c\n") =
        .ok ⟨[mailedFile, ⟨"y.c", none, .added, "C", false, []⟩]⟩) := by
  have h : parse mailed = .ok ⟨[mailedFile]⟩ := rfl
  have hw : Text.Whole mailed.toList := .inr rfl
  have hs : StartsWithCommand "\r\n\ndiff --git a/y b/y\n@@ -1\n" :=
    ⟨"diff --git a/y b/y".toList, rfl, rfl⟩
  have hc : Block.current (Scan.ofLines (Text.lines mailed.toList)).placed = [] := rfl
  exact ⟨h, hw, ⟨hs, (parse_append h hw _).1 hs⟩, hc, (parse_append h hw _).2 hc _ rfl⟩

end ParsedDiff
end DiffReview
