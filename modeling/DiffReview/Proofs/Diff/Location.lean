import DiffReview.Proofs.Diff.Stability
import DiffReview.Proofs.Scan.History
import DiffReview.Proofs.Scan.Stop
import DiffReview.Proofs.Text.Whole

/-!
# Where a parse error is located

A parse error that is found in splitting is found at a line: the lines before it can be split, and
its block is the block that they leave open, followed by that line. Whatever follows the line, the
error is the same. All other parse errors are found in the first block that is not read.
-/
namespace DiffReview

namespace Block

/-- The block that a run leaves open is its last block. -/
theorem current_eq_of_run {t : ScanState} {placed : List (Placement × Line)} {next : Option Line}
    (h : Scan.Run {} placed next t) :
    current placed = if Scan.NoneOpen placed then [] else (ofPlaced placed).getLastD [] := by
  have htr : Tracks ([] ++ placed) t := h.tracks tracks_initial
  rw [List.nil_append] at htr
  split
  · rename_i hn
    by_contra hc
    have hi := htr.inside_iff.2 hc
    rw [h.recalls.noneOpen_iff.1 hn] at hi
    cases hi
  · rename_i hn
    have hi : t.inside = true := by simpa using mt h.recalls.noneOpen_iff.2 hn
    obtain ⟨earlier, he⟩ := htr.blocks hi
    have hl := he []
    rw [List.append_nil, gather_nil, List.append_nil] at hl
    rw [hl, List.getLastD_concat]

/-- Splitting fails with an error at a line that cannot be placed behind a run. -/
theorem exists_run_of_ofLines {lines : List Line} {e : ParseError}
    (h : ofLines lines = .error (.rejected e)) :
    ∃ placed t fault line rest, lines = placed.map Prod.snd ++ line :: rest ∧
      Scan.Run {} placed (some line) t ∧ t.place line rest.head? = .error (.fault fault) ∧
      e = ⟨.scan fault line, current placed ++ [line]⟩ := by
  unfold ofLines at h
  cases hs : (Scan.ofLines lines).stop with
  | none => simp [hs] at h
  | some stop =>
    obtain ⟨stop, line⟩ := stop
    obtain ⟨t, rest, hl, hr, hp⟩ := Scan.exists_run_of_stop hs
    simp only [hs] at h
    cases stop with
    | numeral e => simp [failureAt] at h
    | fault fault =>
      simp only [failureAt, Except.error.injEq, ParseFailure.rejected.injEq] at h
      exact ⟨_, t, fault, line, rest, hl, hr, hp, h.symm⟩

/-- Behind a run, a line that cannot be placed is an error of the whole. -/
theorem ofLines_of_run {placed : List (Placement × Line)} {t : ScanState} {line : Line}
    {rest : List Line} {fault : ScanFault} (h : Scan.Run {} placed (some line) t)
    (hp : t.place line rest.head? = .error (.fault fault)) :
    ofLines (placed.map Prod.snd ++ line :: rest) =
      .error (.rejected ⟨.scan fault line, current placed ++ [line]⟩) := by
  rw [ofLines, Scan.ofLines, h.after_eq_of_error hp]
  rfl

/-- Whatever text comes behind such a line, the error is the same; only for a source line a target
line must not come next. -/
theorem split_append_of_run {placed : List (Placement × Line)} {t : ScanState} {line : Line}
    {next : Option Line} {fault : ScanFault} (h : Scan.Run {} placed (some line) t)
    (hp : t.place line next = .error (.fault fault))
    (hnewline : ∀ l ∈ placed.map Prod.snd ++ [line], '\n' ∉ l) {later : String}
    (hlater : fault = .sourceWithoutTarget → ¬ Mark.targetMark <+: later.toList) :
    split (text (placed.map Prod.snd ++ [line]) ++ later) =
      .error (.rejected ⟨.scan fault line, current placed ++ [line]⟩) := by
  rw [split, text, String.toList_append, String.toList_ofList, Text.lines_join_append hnewline,
    List.append_assoc, List.singleton_append]
  refine ofLines_of_run h (ScanState.place_eq_error_congr hp fun hf hh => ?_)
  obtain ⟨first, hfirst, hmark⟩ : ∃ first, (Text.lines later.toList).head? = some first ∧
      Mark.targetMark <+: first := by
    simpa [ScanState.Heralds, Line.startsWith, Option.any_eq_true] using hh
  exact hlater hf (hmark.trans (Text.prefix_of_head?_lines hfirst))

/-- A block that is not read is the block of its error. -/
theorem block_of_fileChange {block : Block} {e : ParseError}
    (h : block.fileChange = .error (.rejected e)) : e.block = block := by
  unfold fileChange at h
  split at h
  · rename_i stop _
    cases stop with
    | fault fault =>
      cases h
      rfl
    | numeral e => simp [failureIn] at h
  · split at h <;> cases h
  · cases h
    rfl

end Block

namespace ParsedDiff

/-- A diff is rejected in splitting, or else in the first block that is not read. -/
theorem rejected_cases {text : String} {e : ParseError} (h : parse text = .error (.rejected e)) :
    Block.split text = .error (.rejected e) ∨
    ∃ before after files, Block.split text = .ok (before ++ e.block :: after) ∧
      before.mapM Block.fileChange = .ok files ∧ e.block.fileChange = .error (.rejected e) := by
  unfold parse at h
  split at h
  · rename_i failure hs
    cases h
    exact .inl hs
  · rename_i blocks hs
    split at h
    · rename_i failure hm
      cases h
      obtain ⟨before, block, after, files, rfl, hfiles, hblock⟩ := exists_split_of_mapM_eq_error hm
      obtain rfl := Block.block_of_fileChange hblock
      exact .inr ⟨before, after, files, hs, hfiles, hblock⟩
    · cases h

/-- A parse error names its place. If the diff is not split, the lines before a certain line are,
the block of the error is what they leave open and that line, and the error is the same whatever
text comes next; only behind a source line it must not be a target line. If the diff is split, the
block of the error is the first that is not read. -/
theorem parse_rejected {text : String} {e : ParseError} (h : parse text = .error (.rejected e)) :
    (∀ failure, Block.split text = .error failure → ∃ i line placed,
      (Text.lines text.toList)[i]? = some line ∧
      Scan.ofLines ((Text.lines text.toList).take i) = ⟨placed, none⟩ ∧
      Block.split (Block.text ((Text.lines text.toList).take i)) = .ok (Block.ofPlaced placed) ∧
      e.block = (if Scan.NoneOpen placed then [] else (Block.ofPlaced placed).getLastD []) ++
        [line] ∧
      ∀ later : String,
        (e.fault = .scan .sourceWithoutTarget line → ¬ Mark.targetMark <+: later.toList) →
        Block.split (Block.text ((Text.lines text.toList).take (i + 1)) ++ later) =
          .error (.rejected e)) ∧
    (∀ blocks, Block.split text = .ok blocks → ∃ before after files,
      blocks = before ++ e.block :: after ∧ before.mapM Block.fileChange = .ok files ∧
      e.block.fileChange = .error (.rejected e)) := by
  rcases rejected_cases h with hs | ⟨before, after, files, hs, hfiles, hblock⟩
  · refine ⟨fun _ _ => ?_, fun blocks hok => by simp [hs] at hok⟩
    obtain ⟨placed, t, fault, line, rest, hl, hr, hp, rfl⟩ := Block.exists_run_of_ofLines hs
    have hnewline : ∀ l ∈ placed.map Prod.snd ++ [line], '\n' ∉ l := by
      intro l hm
      have hmem : l ∈ Text.lines text.toList := by
        rw [hl, ← List.singleton_append, ← List.append_assoc]
        exact List.mem_append_left _ hm
      exact Text.newline_not_mem_of_mem_lines hmem
    have hend := hr.to_stop hp
    have htake : (placed.map Prod.snd ++ line :: rest).take (placed.map Prod.snd).length =
        placed.map Prod.snd := List.take_left
    have htake' : (placed.map Prod.snd ++ line :: rest).take ((placed.map Prod.snd).length + 1) =
        placed.map Prod.snd ++ [line] := by simp [List.take_append, List.take_of_length_le]
    refine ⟨(placed.map Prod.snd).length, line, placed, ?_, ?_, ?_, ?_, fun later hlater => ?_⟩
    · rw [hl]
      simp
    · rw [hl, htake, Scan.ofLines, hend.after_eq]
    · rw [hl, htake, Block.split_text fun l hm => hnewline l (List.mem_append_left _ hm)]
      exact Block.ofLines_eq_ok_iff.2 ⟨placed, t, hend, rfl, rfl⟩
    · rw [← Block.current_eq_of_run hr]
    · rw [hl, htake']
      exact Block.split_append_of_run hr hp hnewline fun hf => hlater (by rw [hf])
  · refine ⟨fun failure hf => by simp [hs] at hf, fun blocks hok => ?_⟩
    obtain rfl := Except.ok.inj (hs.symm.trans hok)
    exact ⟨before, after, files, rfl, hfiles, hblock⟩

/-- A source line without its target line, behind a hunk that is full. -/
def lost : String := "--- a/x\n+++ b/x\n@@ -1 +0,0 @@\n--- y\n--- z\n\n+++ z"

/-- The error that it is. -/
def lostError : ParseError :=
  ⟨.scan .sourceWithoutTarget "--- z".toList,
    ["--- a/x", "+++ b/x", "@@ -1 +0,0 @@", "--- y", "--- z"].map String.toList⟩

/-- A short hunk in the second block of three. -/
def cut : String :=
  "--- a/x\n+++ b/x\n@@ -1 +0,0 @@\n--- y\n--- /dev/null\n+++ z\n@@ -0,0 +1,2 @@\n+a\ndiff c d"

/-- The block of the short hunk. -/
def cutBlock : Block := ["--- /dev/null", "+++ z", "@@ -0,0 +1,2 @@", "+a"].map String.toList

/-- The source line is the error whatever comes behind it; the short hunk is that of the first
block that is not read. -/
theorem parse_rejected_lost :
    (parse lost = .error (.rejected lostError) ∧
      ∀ later : String, ¬ Mark.targetMark <+: later.toList →
        Block.split (Block.text lostError.block ++ later) = .error (.rejected lostError)) ∧
    parse cut = .error (.rejected ⟨.block .shortHunk, cutBlock⟩) ∧
      ∃ before after files, Block.split cut = .ok (before ++ cutBlock :: after) ∧
        before.mapM Block.fileChange = .ok files := by
  have hl : parse lost = .error (.rejected lostError) := rfl
  have hs : Block.split lost = .error (.rejected lostError) := rfl
  have hc : parse cut = .error (.rejected ⟨.block .shortHunk, cutBlock⟩) := rfl
  refine ⟨⟨hl, fun later hlater => ?_⟩, hc, ?_⟩
  · obtain ⟨i, line, placed, hi, -, -, hblock, hsplit⟩ := (parse_rejected hl).1 _ hs
    have hline : line = "--- z".toList := by
      have hlast := congrArg List.getLast? hblock
      rw [List.getLast?_concat] at hlast
      exact (Option.some.inj hlast).symm
    have honly : ∀ i < 7, (Text.lines lost.toList)[i]? = some "--- z".toList → i = 4 := by decide
    obtain rfl : i = 4 := honly i (List.getElem?_eq_some_iff.1 hi).1 (hline ▸ hi)
    exact hsplit later fun _ => hlater
  · cases hb : Block.split cut with
    | error failure => cases hb
    | ok blocks =>
      obtain ⟨before, after, files, rfl, hfiles, -⟩ := (parse_rejected hc).2 _ hb
      exact ⟨before, after, files, rfl, hfiles⟩

end ParsedDiff
end DiffReview
