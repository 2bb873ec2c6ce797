import DiffReview.Proofs.Diff.Numbering

/-!
# Order of line numbers

Within a hunk the numbers of the changes of a kind increase. Across the hunks of a file they are
in order if the spans that the headers declare are, and for the old revision only then. Nothing
asks this of the headers: a diff with its hunks in another order is accepted, and its numbers
decrease.
-/
namespace DiffReview

namespace Span

/-- The numbers of the lines of a span. -/
def numbers (span : Span) : List Nat := List.range' span.start span.length

/-- No line of the first span has a greater number than one of the second. -/
def Before (first second : Span) : Prop :=
  first.length = 0 ∨ second.length = 0 ∨ first.start + first.length ≤ second.start + 1

instance (first second : Span) : Decidable (Before first second) :=
  inferInstanceAs (Decidable (_ ∨ _ ∨ _))

theorem before_iff {first second : Span} :
    Before first second ↔ ∀ m ∈ first.numbers, ∀ n ∈ second.numbers, m ≤ n := by
  simp only [numbers, List.mem_range'_1, Before]
  constructor
  · intro h m hm n hn
    omega
  · intro h
    by_contra hno
    -- the last number of the first span against the first number of the second
    have hle := h (first.start + first.length - 1) (by omega) second.start (by omega)
    omega

/-- The numbers of spans do not decrease exactly if each span is before the later ones. -/
theorem pairwise_numbers_iff {spans : List Span} :
    (spans.flatMap numbers).Pairwise (· ≤ ·) ↔ spans.Pairwise Before := by
  have hlt : ∀ span ∈ spans, (numbers span).Pairwise (· ≤ ·) := by
    intro span _
    exact (List.pairwise_lt_range' 1).imp fun h => Nat.le_of_lt h
  rw [List.pairwise_flatMap]
  constructor
  · rintro ⟨-, h⟩
    exact h.imp before_iff.2
  · intro h
    exact ⟨hlt, h.imp before_iff.1⟩

end Span

namespace Change

/-- The numbers of the changes of a kind, in order. -/
def numbers (kind : ChangeKind) (changes : List Change) : List Nat :=
  (changes.filter (·.kind = kind)).filterMap number

/-- The numbers of the changes that are lines of the old revision, in order. -/
def oldNumbers (changes : List Change) : List Nat :=
  (changes.filter (·.kind ≠ .added)).filterMap number

theorem numbers_cons_of_eq {kind : ChangeKind} {change : Change} (hk : change.kind = kind) {n : Nat}
    (hn : change.number = some n) (changes : List Change) :
    numbers kind (change :: changes) = n :: numbers kind changes := by
  simp [numbers, hk, hn]

theorem numbers_cons_of_ne {kind : ChangeKind} {change : Change} (hk : change.kind ≠ kind)
    (changes : List Change) : numbers kind (change :: changes) = numbers kind changes := by
  simp [numbers, hk]

theorem numbers_append (kind : ChangeKind) (first second : List Change) :
    numbers kind (first ++ second) = numbers kind first ++ numbers kind second := by
  simp [numbers]

theorem oldNumbers_append (first second : List Change) :
    oldNumbers (first ++ second) = oldNumbers first ++ oldNumbers second := by
  simp [oldNumbers]

/-- The removed changes, and the context changes, are among those of the old revision. -/
theorem numbers_sublist_oldNumbers {kind : ChangeKind} (hk : kind ≠ .added)
    (changes : List Change) : (numbers kind changes).Sublist (oldNumbers changes) := by
  have hf : changes.filter (·.kind = kind) =
      (changes.filter (·.kind ≠ .added)).filter (·.kind = kind) := by
    rw [List.filter_filter]
    refine List.filter_congr fun change _ => ?_
    by_cases hc : change.kind = kind
    · simp [hc, hk]
    · simp [hc]
  rw [numbers, hf]
  exact List.filter_sublist.filterMap number

/-- Added changes that are numbered by the lines of the new revision before them have numbers of
these lines. -/
theorem numbers_added_sublist {start : Nat} {run : List Change}
    (h : ∀ before change after, run = before ++ change :: after → change.kind = .added →
      change.number = some (start + (before.filter (·.kind ≠ .removed)).length)) :
    (numbers .added run).Sublist
      (List.range' start (run.filter (·.kind ≠ .removed)).length) := by
  induction run generalizing start with
  | nil => simp [numbers]
  | cons change run ih =>
    have hbehind : ∀ before other after, run = before ++ other :: after → other.kind = .added →
        other.number = some (start + ([change].filter (·.kind ≠ .removed)).length +
          (before.filter (·.kind ≠ .removed)).length) := by
      intro before other after he ho
      rw [h (change :: before) other after (by rw [he]; rfl) ho, Nat.add_assoc,
        ← List.length_append, ← List.filter_append]
      rfl
    have hrest := ih hbehind
    cases hk : change.kind with
    | added =>
      rw [numbers_cons_of_eq hk (h [] change run rfl hk)]
      simpa [hk, List.range'_succ] using hrest
    | removed =>
      rw [numbers_cons_of_ne (by simp [hk])]
      simpa [hk] using hrest
    | context =>
      rw [numbers_cons_of_ne (by simp [hk])]
      simpa [hk, List.range'_succ] using hrest.cons start

end Change

namespace Fills

/-- The lines of the old revision in a run have the numbers of its old span. -/
theorem oldNumbers_eq {old new : Span} {run : List Change} (h : Fills old new run) :
    Change.oldNumbers run = old.numbers := by
  have ho := congrArg (List.filterMap id) h.oldNumbers
  simpa [List.filterMap_map, Change.oldNumbers, Span.numbers] using ho

/-- The added changes of a run have numbers of its new span. -/
theorem added_sublist {old new : Span} {run : List Change} (h : Fills old new run) :
    (Change.numbers .added run).Sublist new.numbers := by
  rw [Span.numbers, ← h.newLength]
  exact Change.numbers_added_sublist h.addedNumbers

end Fills

namespace HunkLines

/-- The span of the revision that numbers the changes of a kind. -/
def span? (lines : HunkLines) : ChangeKind → Option Span
  | .added => lines.header.new.span.toOption
  | .removed => lines.header.old.span.toOption
  | .context => lines.header.old.span.toOption

/-- The spans of hunks that number the changes of a kind. -/
def spans (kind : ChangeKind) (hunks : List HunkLines) : List Span := hunks.filterMap (·.span? kind)

theorem spans_cons {lines : HunkLines} {kind : ChangeKind} {span : Span}
    (h : lines.span? kind = some span) (hunks : List HunkLines) :
    spans kind (lines :: hunks) = span :: spans kind hunks := by
  simp [spans, h]

/-- The numbers of each kind in the run are numbers of the span that numbers the kind, each at most
once and in their order. -/
def Climbs (lines : HunkLines) (run : List Change) : Prop :=
  ∀ kind, ∃ span, lines.span? kind = some span ∧ (Change.numbers kind run).Sublist span.numbers

theorem Yields.climbs {lines : HunkLines} {run : List Change} {old new : Span}
    (h : lines.Yields run old new) : Climbs lines run := by
  intro kind
  have hold := h.fills.oldNumbers_eq
  cases kind with
  | added => exact ⟨new, by rw [span?, h.newSpan]; rfl, h.fills.added_sublist⟩
  | removed =>
    exact ⟨old, by rw [span?, h.oldSpan]; rfl,
      hold ▸ Change.numbers_sublist_oldNumbers (by decide) run⟩
  | context =>
    exact ⟨old, by rw [span?, h.oldSpan]; rfl,
      hold ▸ Change.numbers_sublist_oldNumbers (by decide) run⟩

/-- In a run that climbs the numbers of a kind increase. -/
theorem Climbs.pairwise_lt {lines : HunkLines} {run : List Change} (h : Climbs lines run)
    (kind : ChangeKind) : (Change.numbers kind run).Pairwise (· < ·) := by
  obtain ⟨span, -, hsub⟩ := h kind
  exact (List.pairwise_lt_range' 1).sublist hsub

/-- Runs one after the other have numbers of the spans, hunk by hunk. -/
theorem numbers_flatten_sublist {hunks : List HunkLines} {runs : List (List Change)}
    (h : List.Forall₂ Climbs hunks runs) (kind : ChangeKind) :
    (Change.numbers kind runs.flatten).Sublist ((spans kind hunks).flatMap Span.numbers) := by
  induction h with
  | nil => simp [Change.numbers]
  | cons hclimbs _ ih =>
    obtain ⟨span, hs, hsub⟩ := hclimbs kind
    rw [List.flatten_cons, Change.numbers_append, spans_cons hs, List.flatMap_cons]
    exact hsub.append ih

/-- The lines of the old revision in runs one after the other have all numbers of the old spans. -/
theorem oldNumbers_flatten {hunks : List HunkLines} {runs : List (List Change)}
    (h : List.Forall₂ (fun lines run => ∃ old new, Yields lines run old new) hunks runs) :
    Change.oldNumbers runs.flatten = (spans .removed hunks).flatMap Span.numbers := by
  induction h with
  | nil => rfl
  | @cons lines _ _ _ hy _ ih =>
    obtain ⟨old, new, hy⟩ := hy
    have hs : lines.span? .removed = some old := by rw [span?, hy.oldSpan]; rfl
    rw [List.flatten_cons, Change.oldNumbers_append, spans_cons hs, List.flatMap_cons,
      hy.fills.oldNumbers_eq, ih]

end HunkLines

namespace Block

/-- The spans that number the changes of a kind, hunk by hunk. -/
def spans (block : Block) (kind : ChangeKind) : List Span :=
  HunkLines.spans kind (hunkLines block)

/-- The numbers of a file ascend as far as the hunk headers of its block do. -/
structure Ascends (block : Block) (file : FileChange) : Prop where
  /-- The changes are the runs of the hunks one after the other, and in each run the numbers of a
  kind increase. -/
  runs : ∃ runs : List (List Change), file.changes = runs.flatten ∧
    List.Forall₂ (fun lines run => HunkLines.Climbs lines run ∧
      ∀ kind, (Change.numbers kind run).Pairwise (· < ·)) (hunkLines block) runs
  /-- Where the spans are in order, the numbers of the kind do not decrease in the file. -/
  ordered : ∀ kind, (spans block kind).Pairwise Span.Before →
    (Change.numbers kind file.changes).Pairwise (· ≤ ·)
  /-- The numbers of the old revision do not decrease only if the old spans are in order. -/
  old : (Change.oldNumbers file.changes).Pairwise (· ≤ ·) ↔
    (spans block .removed).Pairwise Span.Before

/-- The numbers of a file that is read from a block ascend. -/
theorem ascends_of_fileChange {block : Block} {file : FileChange}
    (h : fileChange block = .ok file) : Ascends block file := by
  obtain ⟨runs, hflat, hy⟩ := exists_runs_of_fileChange h
  have hclimbs : List.Forall₂ HunkLines.Climbs (hunkLines block) runs :=
    hy.imp fun _ _ ⟨_, _, h⟩ => h.climbs
  refine ⟨⟨runs, hflat, hclimbs.imp fun _ _ h => ⟨h, h.pairwise_lt⟩⟩, fun kind hs => ?_, ?_⟩
  · rw [hflat]
    exact (Span.pairwise_numbers_iff.2 hs).sublist
      (HunkLines.numbers_flatten_sublist hclimbs kind)
  · rw [hflat, HunkLines.oldNumbers_flatten hy]
    exact Span.pairwise_numbers_iff

end Block

namespace ParsedDiff

/-- In every file of an accepted diff the numbers of a kind increase within each hunk, and do not
decrease from hunk to hunk where the headers are in order. -/
theorem numbers_ascend {text : String} {diff : ParsedDiff} (h : parse text = .ok diff) :
    ∃ blocks, Block.split text = .ok blocks ∧ List.Forall₂ Block.Ascends blocks diff.files := by
  obtain ⟨blocks, hs, hf⟩ := parse_eq_ok_iff.1 h
  exact ⟨blocks, hs, hf.imp fun _ _ => Block.ascends_of_fileChange⟩

/-- Two hunks in order, and an empty old side with a smaller number between them. -/
def climbing : String :=
  "--- a/f\n+++ b/f\n@@ -3 +3 @@\n-a\n+b\n@@ -0,0 +5 @@\n+c\n@@ -7,2 +9,2 @@\n d\n-e\n+f\n"

/-- What the hunks in order say. -/
def climbingFile : FileChange :=
  ⟨"f", none, .modified, "Unknown", false, [⟨.removed, "a", some 3⟩, ⟨.added, "b", some 3⟩,
    ⟨.added, "c", some 5⟩, ⟨.context, "d", some 7⟩, ⟨.removed, "e", some 8⟩,
    ⟨.added, "f", some 10⟩]⟩

/-- The numbers of the hunks in order ascend. -/
theorem numbers_ascend_climbing : parse climbing = .ok ⟨[climbingFile]⟩ ∧
    ∃ blocks, Block.split climbing = .ok blocks ∧
      List.Forall₂ Block.Ascends blocks [climbingFile] := by
  have h : parse climbing = .ok ⟨[climbingFile]⟩ := rfl
  exact ⟨h, numbers_ascend h⟩

/-- Two hunks, the second for earlier lines than the first. -/
def swapped : String := "--- a/x\n+++ b/x\n@@ -5 +5 @@\n-a\n+b\n@@ -1 +1 @@\n-c\n+d\n"

/-- What the swapped hunks say. -/
def swappedFile : FileChange :=
  ⟨"x", none, .modified, "Unknown", false, [⟨.removed, "a", some 5⟩, ⟨.added, "b", some 5⟩,
    ⟨.removed, "c", some 1⟩, ⟨.added, "d", some 1⟩]⟩

/-- The swapped hunks are accepted, and the numbers of both kinds decrease. -/
theorem not_ascending_of_swapped :
    parse swapped = .ok ⟨[swappedFile]⟩ ∧
    Change.numbers .added swappedFile.changes = [5, 1] ∧
    Change.numbers .removed swappedFile.changes = [5, 1] ∧
    ¬ ∀ text diff, parse text = .ok diff → ∀ file ∈ diff.files, ∀ kind,
      (Change.numbers kind file.changes).Pairwise (· ≤ ·) := by
  have hp : parse swapped = .ok ⟨[swappedFile]⟩ := rfl
  refine ⟨hp, rfl, rfl, fun hall => ?_⟩
  have hno := hall _ _ hp swappedFile (by simp) .added
  exact absurd hno (by decide)

end ParsedDiff
end DiffReview
