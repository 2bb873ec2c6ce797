import DiffReview.Proofs.Diff.Tight
import Mathlib.Algebra.GroupWithZero.Nat

/-!
# Line numbers

The changes of an accepted file are one run for each hunk header of its block. A run has exactly
as many lines on each side as the header declares, and they are numbered from the declared starts
on; nothing that looks like a change is left over between the hunks. So the counts of a file are
those of the marked lines in its hunk bodies, and the totals of a diff are their sums.
-/
namespace DiffReview

namespace Line

/-- The kind of change that a line of a hunk body is by its marker; a note is none. -/
def kind? : Line → Option ChangeKind
  | [] => some .context
  | c :: _ =>
    if c = '+' then some .added
    else if c = '-' then some .removed
    else if c = '\\' then none
    else some .context

/-- Added and removed lines are told by their markers. -/
theorem kind?_eq_some_iff {kind : ChangeKind} {mark : Char}
    (hm : (kind, mark) ∈ [(.added, '+'), (.removed, '-')]) (line : Line) :
    line.kind? = some kind ↔ line.startsWith [mark] = true := by
  have hkind : kind = .added ∧ mark = '+' ∨ kind = .removed ∧ mark = '-' := by simpa using hm
  cases line with
  | nil => rcases hkind with ⟨rfl, rfl⟩ | ⟨rfl, rfl⟩ <;> simp [kind?, startsWith]
  | cons c text =>
    have hstart : startsWith (c :: text) [mark] = true ↔ c = mark := by
      simp only [startsWith, List.isPrefixOf, Bool.and_true, beq_iff_eq]
      exact eq_comm
    rw [hstart, kind?]
    rcases hkind with ⟨rfl, rfl⟩ | ⟨rfl, rfl⟩
    · split_ifs <;> simp_all
    · split_ifs <;> simp_all

end Line

namespace BodyLine

/-- The kind of change that a body line is; a note is none. -/
def kind? : BodyLine → Option ChangeKind
  | .added _ => some .added
  | .removed _ => some .removed
  | .context _ => some .context
  | .note _ => none

theorem kind?_of_ofLine? {line : Line} {bodyLine : BodyLine} (h : ofLine? line = some bodyLine) :
    bodyLine.kind? = line.kind? := by
  cases line with
  | nil =>
    cases h
    rfl
  | cons c text =>
    simp only [ofLine?] at h
    split_ifs at h
    all_goals
      subst_vars
      cases h
      rfl

theorem oldLength_append (first second : List BodyLine) :
    oldLength (first ++ second) = oldLength first + oldLength second := by
  induction first with
  | nil => simp [oldLength]
  | cons line first ih => rw [List.cons_append, oldLength_cons, oldLength_cons, ih, Nat.add_assoc]

theorem newLength_append (first second : List BodyLine) :
    newLength (first ++ second) = newLength first + newLength second := by
  induction first with
  | nil => simp [newLength]
  | cons line first ih => rw [List.cons_append, newLength_cons, newLength_cons, ih, Nat.add_assoc]

/-- A body has the lengths and the kinds of the lines from which it is read. -/
theorem measures_of_mapM {lines : List Line} {body : List BodyLine}
    (h : lines.mapM ofLine? = some body) :
    oldLength body = (lines.map Line.oldWidth).sum ∧
    newLength body = (lines.map Line.newWidth).sum ∧
    body.filterMap kind? = lines.filterMap Line.kind? := by
  induction lines generalizing body with
  | nil =>
    cases h
    exact ⟨rfl, rfl, rfl⟩
  | cons line lines ih =>
    obtain ⟨bodyLine, rest, hl, hr, rfl⟩ := mapM_cons_eq_some h
    obtain ⟨hwo, hwn⟩ := Line.widths_of_bodyLine hl
    obtain ⟨ho, hn, hk⟩ := ih hr
    refine ⟨?_, ?_, ?_⟩
    · rw [oldLength_cons, hwo, ho, List.map_cons, List.sum_cons]
    · rw [newLength_cons, hwn, hn, List.map_cons, List.sum_cons]
    · simp only [List.filterMap_cons, kind?_of_ofLine? hl, hk]

/-- Notes measure nothing. -/
theorem measures_of_isNote {notes : List BodyLine} (h : ∀ line ∈ notes, line.isNote = true) :
    oldLength notes = 0 ∧ newLength notes = 0 ∧ notes.filterMap kind? = [] := by
  induction notes with
  | nil => exact ⟨rfl, rfl, rfl⟩
  | cons line notes ih =>
    obtain ⟨ho, hn, hk⟩ := ih fun other hm => h other (List.mem_cons_of_mem _ hm)
    have hl := h line List.mem_cons_self
    cases line with
    | note text =>
      rw [oldLength_cons, newLength_cons, ho, hn]
      exact ⟨rfl, rfl, hk⟩
    | _ => cases hl

end BodyLine

namespace Change

/-- The number of a change, if it has one. -/
def number (change : Change) : Option Nat := change.lineNumber.map Subtype.val

end Change

/-- A run of changes fills two spans: its lines of the old revision are numbered through the first,
it has as many lines of the new revision as the second, and an added line has the number that
comes after the lines of the new revision before it. -/
structure Fills (old new : Span) (run : List Change) : Prop where
  oldNumbers : (run.filter (·.kind ≠ .added)).map Change.number =
    (List.range' old.start old.length).map some
  newLength : (run.filter (·.kind ≠ .removed)).length = new.length
  addedNumbers : ∀ before change after, run = before ++ change :: after → change.kind = .added →
    change.number = some (new.start + (before.filter (·.kind ≠ .removed)).length)

namespace Fills

theorem nil (old new : Nat) : Fills ⟨old, 0⟩ ⟨new, 0⟩ [] where
  oldNumbers := rfl
  newLength := rfl
  addedNumbers := by simp

/-- One more line of the old revision has the number in front of the others. -/
theorem oldNumbers_cons {old new : Span} {run : List Change} {change : Change}
    (h : Fills old new run) (hk : change.kind ≠ .added) {start : Nat} (hs : old.start = start + 1)
    (hn : change.number = some start) :
    ((change :: run).filter (·.kind ≠ .added)).map Change.number =
      (List.range' start (old.length + 1)).map some := by
  have ho := h.oldNumbers
  rw [hs] at ho
  simpa [hk, hn, List.range'_succ] using ho

/-- One more line in front of a run moves the added lines on if the new revision has it. -/
theorem addedNumbers_cons {old new : Span} {run : List Change} {change : Change}
    (h : Fills old new run) {start : Nat}
    (hs : new.start = start + ([change].filter (·.kind ≠ .removed)).length)
    (hn : change.kind = .added → change.number = some start) :
    ∀ before other after, change :: run = before ++ other :: after → other.kind = .added →
      other.number = some (start + (before.filter (·.kind ≠ .removed)).length) := by
  intro before other after he ho
  cases before with
  | nil =>
    obtain ⟨rfl, -⟩ : change = other ∧ run = after := by simpa using he
    simpa using hn ho
  | cons first before =>
    obtain ⟨rfl, hrun⟩ : change = first ∧ run = before ++ other :: after := by simpa using he
    rw [h.addedNumbers before other after hrun ho, hs, Nat.add_assoc, ← List.length_append,
      ← List.filter_append]
    rfl

theorem added {old new : Span} {run : List Change} {change : Change} (h : Fills old new run)
    (hk : change.kind = .added) {start : Nat} (hs : new.start = start + 1)
    (hn : change.number = some start) : Fills old ⟨start, new.length + 1⟩ (change :: run) where
  oldNumbers := by simpa [hk] using h.oldNumbers
  newLength := by simpa [hk] using h.newLength
  addedNumbers := h.addedNumbers_cons (by simpa [hk] using hs) fun _ => hn

theorem removed {old new : Span} {run : List Change} {change : Change} (h : Fills old new run)
    (hk : change.kind = .removed) {start : Nat} (hs : old.start = start + 1)
    (hn : change.number = some start) : Fills ⟨start, old.length + 1⟩ new (change :: run) where
  oldNumbers := h.oldNumbers_cons (by simp [hk]) hs hn
  newLength := by simpa [hk] using h.newLength
  addedNumbers := h.addedNumbers_cons (by simp [hk]) (by simp [hk])

theorem context {old new : Span} {run : List Change} {change : Change} (h : Fills old new run)
    (hk : change.kind = .context) {start start' : Nat} (hs : old.start = start + 1)
    (hs' : new.start = start' + 1) (hn : change.number = some start) :
    Fills ⟨start, old.length + 1⟩ ⟨start', new.length + 1⟩ (change :: run) where
  oldNumbers := h.oldNumbers_cons (by simp [hk]) hs hn
  newLength := by simpa [hk] using h.newLength
  addedNumbers := h.addedNumbers_cons (by simpa [hk] using hs') (by simp [hk])

end Fills

namespace Numbered

theorem change?_eq_some_iff {n : Numbered} {change : Change} :
    n.change? = some change ↔ change.kind = n.kind ∧
      change.content = String.ofList n.content ∧ change.number = some n.number := by
  obtain ⟨kind, content, number⟩ := n
  obtain ⟨kind', content', number'⟩ := change
  unfold change?
  by_cases h : 0 < number
  · cases number' with
    | none => simp [h, Change.number]
    | some m => simp [h, Change.number, Subtype.ext_iff, eq_comm]
  · have hz : number = 0 := by omega
    cases number' with
    | none => simp [h, Change.number]
    | some m =>
      have hm := m.2
      simp [Change.number, hz]
      omega

/-- Notes have no numbers. -/
theorem ofBody_of_isNote {notes : List BodyLine}
    (h : ∀ line ∈ notes, line.isNote = true) (old new : Nat) : ofBody old new notes = [] := by
  induction notes generalizing old new with
  | nil => rfl
  | cons line notes ih =>
    have hl := h line List.mem_cons_self
    cases line with
    | note text => exact ih (fun other hm => h other (List.mem_cons_of_mem _ hm)) old new
    | _ => cases hl

/-- The numbers of a body fill the spans from which they start. -/
theorem fills_of_ofBody {body : List BodyLine} {old new : Nat} {run : List Change}
    (h : (ofBody old new body).mapM change? = some run) :
    Fills ⟨old, BodyLine.oldLength body⟩ ⟨new, BodyLine.newLength body⟩ run := by
  induction body generalizing old new run with
  | nil =>
    cases h
    exact .nil old new
  | cons line body ih =>
    rw [BodyLine.oldLength_cons, BodyLine.newLength_cons, Nat.add_comm, Nat.add_comm line.newWidth]
    cases line with
    | note text => exact ih h
    | added text =>
      obtain ⟨change, rest, hc, hr, rfl⟩ := mapM_cons_eq_some h
      obtain ⟨hk, -, hn⟩ := change?_eq_some_iff.1 hc
      exact (ih hr).added hk rfl hn
    | removed text =>
      obtain ⟨change, rest, hc, hr, rfl⟩ := mapM_cons_eq_some h
      obtain ⟨hk, -, hn⟩ := change?_eq_some_iff.1 hc
      exact (ih hr).removed hk rfl hn
    | context text =>
      obtain ⟨change, rest, hc, hr, rfl⟩ := mapM_cons_eq_some h
      obtain ⟨hk, -, hn⟩ := change?_eq_some_iff.1 hc
      exact (ih hr).context hk rfl rfl hn

/-- The kinds of the changes are those of the body lines. -/
theorem map_kind_of_ofBody {body : List BodyLine} {old new : Nat} {run : List Change}
    (h : (ofBody old new body).mapM change? = some run) :
    run.map Change.kind = body.filterMap BodyLine.kind? := by
  induction body generalizing old new run with
  | nil =>
    cases h
    rfl
  | cons line body ih =>
    cases line with
    | note text => exact ih h
    | _ =>
      obtain ⟨change, rest, hc, hr, rfl⟩ := mapM_cons_eq_some h
      obtain ⟨hk, -⟩ := change?_eq_some_iff.1 hc
      rw [List.map_cons, hk, ih hr]
      rfl

end Numbered

namespace HunkLines

/-- A hunk yields a run: its header declares two spans, its body has exactly as many lines of each
revision, and the run has the kinds of the body lines and fills the spans. -/
structure Yields (lines : HunkLines) (run : List Change) (old new : Span) : Prop where
  oldSpan : lines.header.old.span = .ok old
  newSpan : lines.header.new.span = .ok new
  oldLength : (lines.body.map Line.oldWidth).sum = old.length
  newLength : (lines.body.map Line.newWidth).sum = new.length
  kinds : run.map Change.kind = lines.body.filterMap Line.kind?
  fills : Fills old new run

/-- A hunk yields the numbered lines of the hunk that it makes. -/
theorem Makes.yields {lines : HunkLines} {hunk : Hunk} {run : List Change} (h : lines.Makes hunk)
    (hr : hunk.numbered.mapM Numbered.change? = some run) :
    lines.Yields run hunk.old hunk.new := by
  obtain ⟨body, notes, hb, hl, hnotes⟩ := h.body
  obtain ⟨hbo, hbn, hbk⟩ := BodyLine.measures_of_mapM hl
  obtain ⟨hno, hnn, hnk⟩ := BodyLine.measures_of_isNote hnotes
  have hold : BodyLine.oldLength hunk.body = BodyLine.oldLength body := by
    rw [hb, BodyLine.oldLength_append, hno, Nat.add_zero]
  have hnew : BodyLine.newLength hunk.body = BodyLine.newLength body := by
    rw [hb, BodyLine.newLength_append, hnn, Nat.add_zero]
  refine ⟨h.old, h.new, ?_, ?_, ?_, ?_⟩
  · rw [← hbo, ← hold, h.oldLength]
  · rw [← hbn, ← hnew, h.newLength]
  · rw [Numbered.map_kind_of_ofBody hr, hb, List.filterMap_append, hnk, List.append_nil, hbk]
  · have hf := Numbered.fills_of_ofBody hr
    rwa [h.oldLength, h.newLength] at hf

end HunkLines

namespace Block

/-- The lines of a block that are in hunk bodies. -/
def bodyLines (block : Block) : List Line := (hunkLines block).flatMap HunkLines.body

/-- The number of lines that a block adds. -/
def additions (block : Block) : Nat := (bodyLines block).countP (Line.startsWith · ['+'])

/-- The number of lines that a block removes. -/
def deletions (block : Block) : Nat := (bodyLines block).countP (Line.startsWith · ['-'])

/-- A file accounts for its block: it has one run of changes for each hunk header, in order, and
counts the marked lines of the hunk bodies. -/
structure Accounts (block : Block) (file : FileChange) : Prop where
  /-- Every line that starts like a hunk header is the header of a hunk. -/
  headers : (block.filter (Line.startsWith · ['@', '@'])).map HunkHeader.ofLine? =
    (hunkLines block).map (some ·.header)
  runs : ∃ runs, file.changes = runs.flatten ∧
    List.Forall₂ (fun lines run => ∃ old new, HunkLines.Yields lines run old new)
      (hunkLines block) runs
  /-- No hunk goes on after its declared length. -/
  tight : ∀ line ∈ loose block, line.isMarked = false
  additions : file.additions = additions block
  deletions : file.deletions = deletions block

theorem map_ofLine?_eq_hunkLines {block : Block} (h : ∀ line ∈ block,
    Line.startsWith line ['@', '@'] = true → (HunkHeader.ofLine? line).isSome = true) :
    (block.filter (Line.startsWith · ['@', '@'])).map HunkHeader.ofLine? =
      (hunkLines block).map (some ·.header) := by
  induction block with
  | nil => rfl
  | cons line block ih =>
    have hb := ih fun other hm => h other (List.mem_cons_of_mem _ hm)
    cases hl : HunkHeader.ofLine? line with
    | some header =>
      have hs := HunkHeader.startsWith_of_ofLine? hl
      simp only [List.filter_cons, hs, if_true, hunkLines_of_header hl, List.map_cons, hl, hb]
    | none =>
      have hs : ¬ Line.startsWith line ['@', '@'] = true := by
        intro hs
        simpa [hl] using h line List.mem_cons_self hs
      rw [hunkLines_of_none hl, ← hb, List.filter_cons, if_neg hs]

theorem countP_kind_eq {kind : ChangeKind} {mark : List Char}
    (hm : ∀ line : Line, (line.kind? = some kind ↔ line.startsWith mark = true))
    (lines : List Line) :
    (lines.filterMap Line.kind?).countP (· = kind) = lines.countP (Line.startsWith · mark) := by
  rw [List.countP_filterMap]
  refine List.countP_congr fun line _ => ?_
  rw [← hm line]
  cases line.kind? <;> simp

/-- Runs one after the other have the kinds of the body lines. -/
theorem map_kind_flatten {hunks : List HunkLines} {runs : List (List Change)}
    (h : List.Forall₂ (fun lines run => ∃ old new, HunkLines.Yields lines run old new) hunks runs) :
    runs.flatten.map Change.kind = (hunks.flatMap HunkLines.body).filterMap Line.kind? := by
  induction h with
  | nil => rfl
  | cons hy _ ih =>
    obtain ⟨old, new, hy⟩ := hy
    rw [List.flatten_cons, List.map_append, hy.kinds, ih, List.flatMap_cons,
      List.filterMap_append]

/-- The changes of a file are one run for each hunk of its block. -/
theorem exists_runs_of_fileChange {block : Block} {file : FileChange}
    (h : fileChange block = .ok file) : ∃ runs, file.changes = runs.flatten ∧
      List.Forall₂ (fun lines run => ∃ old new, HunkLines.Yields lines run old new)
        (hunkLines block) runs := by
  obtain ⟨patch, hp, hf⟩ := fileChange_eq_ok_iff.1 h
  obtain ⟨changes, hc, rfl⟩ := Option.map_eq_some_iff.1 hf
  obtain ⟨runs, hflat, hruns⟩ := mapM_flatMap_eq_some hc
  refine ⟨runs, hflat, (forall₂_trans (Patch.makes_of_ofBlock hp) hruns).imp ?_⟩
  rintro lines run ⟨hunk, hm, hr⟩
  exact ⟨hunk.old, hunk.new, hm.yields hr⟩

/-- A block that is read as a file accounts for it, if its hunk headers are well formed and nothing
that looks like a change is left over. -/
theorem accounts_of_fileChange {block : Block} {file : FileChange}
    (hs : ∀ line ∈ block,
      Line.startsWith line ['@', '@'] = true → (HunkHeader.ofLine? line).isSome = true)
    (ht : ∀ line ∈ loose block, line.isMarked = false)
    (h : fileChange block = .ok file) : Accounts block file := by
  obtain ⟨runs, hflat, hy⟩ := exists_runs_of_fileChange h
  have hk : file.changes.map Change.kind = (bodyLines block).filterMap Line.kind? := by
    rw [hflat, bodyLines]
    exact map_kind_flatten hy
  have hcount {kind : ChangeKind} {mark : Char}
      (hm : (kind, mark) ∈ [(.added, '+'), (.removed, '-')]) :
      file.changes.countP (·.kind = kind) =
        (bodyLines block).countP (Line.startsWith · [mark]) := by
    rw [← countP_kind_eq (Line.kind?_eq_some_iff hm), ← hk, List.countP_map]
    rfl
  exact ⟨map_ofLine?_eq_hunkLines hs, ⟨runs, hflat, hy⟩, ht, hcount (by simp), hcount (by simp)⟩

end Block

namespace Scan

/-- Every placed line that starts like a hunk header is one. -/
theorem Run.isSome_header {s t : ScanState} {placed : List (Placement × Line)}
    {next : Option Line} (h : Run s placed next t) {line : Line}
    (hl : line ∈ placed.map Prod.snd) (hs : Line.startsWith line ['@', '@'] = true) :
    (HunkHeader.ofLine? line).isSome = true := by
  obtain ⟨rest, rfl⟩ := Line.exists_of_startsWith hs
  induction h with
  | done => simp at hl
  | @step _ _ _ _ first _ _ hp _ ih =>
    rcases List.mem_cons.1 hl with rfl | hl
    · rcases ScanState.place_eq_ok_iff.1 hp with ⟨-, hb, -⟩ | ⟨-, ho⟩
      · simp [Line.isBody, Line.isBlank] at hb
      · have hm : Mark.ofLine (['@', '@'] ++ rest) = .hunk := rfl
        cases ho with
        | hunk _ hh => exact Option.isSome_iff_exists.2 ⟨_, hh⟩
        | _ => simp_all
    · exact ih hl

end Scan

namespace ParsedDiff

/-- The changes of every file of an accepted diff are one run for each hunk header of its block,
each as long as declared and numbered from the declared starts on. So the counts are those of the
marked lines in the hunk bodies. -/
theorem changes_by_hunk {text : String} {diff : ParsedDiff} (h : parse text = .ok diff) :
    ∃ blocks, Block.split text = .ok blocks ∧
      List.Forall₂ Block.Accounts blocks diff.files ∧
      diff.summary.totalAdditions = (blocks.map Block.additions).sum ∧
      diff.summary.totalDeletions = (blocks.map Block.deletions).sum := by
  obtain ⟨blocks, hs, hf⟩ := parse_eq_ok_iff.1 h
  obtain ⟨placed, t, hr, -, rfl⟩ := Block.ofLines_eq_ok_iff.1 hs
  have ha : List.Forall₂ Block.Accounts (Block.ofPlaced placed) diff.files := by
    refine ((List.forall₂_and_left _ _).2 ⟨fun _ hb => hb, hf⟩).imp ?_
    rintro block file ⟨hb, hfile⟩
    obtain ⟨patch, hp, -⟩ := Block.fileChange_eq_ok_iff.1 hfile
    refine Block.accounts_of_fileChange (fun line hl hm => ?_) ?_ hfile
    · exact hr.isSome_header (Block.mem_of_mem_ofPlaced hb hl) hm
    · exact hr.not_isMarked_of_mem_loose (ScanState.coherent_initial _) hb hp
  refine ⟨_, hs, ha, ?_, ?_⟩
  · exact congrArg List.sum (map_eq_of_forall₂ (ha.imp fun _ _ h => h.additions.symm)).symm
  · exact congrArg List.sum (map_eq_of_forall₂ (ha.imp fun _ _ h => h.deletions.symm)).symm

/-- Two hunks: a length left out, an empty side, and body lines that look like headers. -/
def lookalikes : String :=
  "--- a/f\n+++ b/f\n@@ -3,2 +3 @@\n a\n--- x\n@@ -9,0 +9,2 @@\n++++ y\n+@@ -1\n-- \n2.1\n"

/-- What the two hunks say. -/
def lookalikesFile : FileChange :=
  ⟨"f", none, .modified, "Unknown", false, [⟨.context, "a", some 3⟩,
    ⟨.removed, "-- x", some 4⟩, ⟨.added, "+++ y", some 9⟩,
    ⟨.added, "@@ -1", some 10⟩]⟩

/-- The changes of the two hunks are accounted for. -/
theorem changes_by_hunk_lookalikes : parse lookalikes = .ok ⟨[lookalikesFile]⟩ ∧
    ∃ blocks, Block.split lookalikes = .ok blocks ∧
      List.Forall₂ Block.Accounts blocks [lookalikesFile] ∧
      2 = (blocks.map Block.additions).sum ∧ 1 = (blocks.map Block.deletions).sum := by
  have h : parse lookalikes = .ok ⟨[lookalikesFile]⟩ := rfl
  exact ⟨h, changes_by_hunk h⟩

end ParsedDiff
end DiffReview
