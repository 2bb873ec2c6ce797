import DiffReview.Proofs.Diff.Accepted
import DiffReview.Proofs.Scan.Rescan

/-!
# Stability of splitting

The text of the blocks of a diff is split into the same blocks, and the text of each block alone
into that block only, whether or not its hunks are as long as declared. So every file of an
accepted diff is the only file of its own block.
-/
namespace DiffReview

namespace Block

/-- Every block of a run is a diff of one block. -/
theorem ofLines_of_mem {s t : ScanState} {placed : List (Placement × Line)} {next : Option Line}
    (h : Scan.Run s placed next t) (hc : s.Coherent (Scan.upcoming placed next))
    (hn : ¬ ScanState.Heralds next) {block : Block} (hb : block ∈ ofPlaced placed) :
    ofLines block = .ok [block] := by
  induction h with
  | done => simp [ofPlaced] at hb
  | @step _ _ _ p line later _ hp hr ih =>
    cases p with
    | opens =>
      rw [ofPlaced_opens] at hb
      rcases List.mem_cons.1 hb with rfl | hb
      · obtain ⟨own, u, hu, hl, hg⟩ := (Scan.Run.step hp hr).own_of_opens hc hn
        refine ofLines_eq_ok_iff.2 ⟨_, u, hu, ?_, ?_⟩
        · rw [List.map_cons, hl]
        · rw [ofPlaced_opens, ofPlaced, hg]
      · exact ih (hc.place hp) hn hb
    | _ => exact ih (hc.place hp) hn hb

/-- The lines of the blocks of a run from the start are split into the same blocks. -/
theorem ofLines_flatten {t : ScanState} {placed : List (Placement × Line)}
    (h : Scan.Run {} placed none t) :
    ofLines (ofPlaced placed).flatten = .ok (ofPlaced placed) := by
  have hc := ScanState.coherent_initial (Scan.upcoming placed none)
  have hf : ScanState.Follows {} {} := .closed rfl rfl rfl ⟨Int.le_refl 0, Int.le_refl 0⟩
  obtain ⟨t', hr⟩ := h.follow hc hf
  refine ofLines_eq_ok_iff.2 ⟨_, t', hr, ?_, ?_⟩
  · rw [← flatten_gather, h.gather_fst_eq_nil rfl]
    rfl
  · rw [ofPlaced, ofPlaced, gather_filter_isKept]

/-- The text of lines without newlines is split as the lines are. -/
theorem split_text {block : Block} (h : ∀ line ∈ block, '\n' ∉ line) :
    split (text block) = ofLines block := by
  rw [split, text, String.toList_ofList, Text.lines_join block h]

/-- The texts of blocks one after the other are the text of all their lines. -/
theorem join_map_text (blocks : List Block) :
    String.join (blocks.map text) = text blocks.flatten := by
  induction blocks with
  | nil => rfl
  | cons block blocks ih =>
    rw [List.map_cons, String.join_cons, ih, List.flatten_cons, text, text, text,
      Text.join_append, String.ofList_append]

end Block

namespace ParsedDiff

/-- The blocks of a diff, one after the other, are split into the same blocks, and each alone into
itself. So a diff that is accepted has one file for each block, and the block alone describes that
file. -/
theorem split_stable {text : String} {blocks : List Block} (h : Block.split text = .ok blocks) :
    Block.split (String.join (blocks.map Block.text)) = .ok blocks ∧
    (∀ block ∈ blocks, Block.split block.text = .ok [block]) ∧
    ∀ diff, parse text = .ok diff → diff.files.length = blocks.length ∧
      List.Forall₂ (fun block file => parse (Block.text block) = .ok ⟨[file]⟩)
        blocks diff.files := by
  obtain ⟨placed, t, hr, hl, rfl⟩ := Block.ofLines_eq_ok_iff.1 h
  have hnewline : ∀ line ∈ (Block.ofPlaced placed).flatten, '\n' ∉ line := by
    intro line hm
    obtain ⟨block, hb, hline⟩ := List.mem_flatten.1 hm
    have hp := Block.mem_of_mem_ofPlaced hb hline
    rw [hl] at hp
    exact Text.newline_not_mem_of_mem_lines hp
  have halone : ∀ block ∈ Block.ofPlaced placed, Block.split block.text = .ok [block] := by
    intro block hb
    rw [Block.split_text fun line hm => hnewline line (List.mem_flatten_of_mem hb hm)]
    exact Block.ofLines_of_mem hr (ScanState.coherent_initial _) (by simp [ScanState.Heralds]) hb
  refine ⟨?_, halone, fun diff hd => ?_⟩
  · rw [Block.join_map_text, Block.split_text hnewline, Block.ofLines_flatten hr]
  · obtain ⟨blocks, hs, hf⟩ := parse_eq_ok_iff.1 hd
    obtain rfl : Block.ofPlaced placed = blocks := Except.ok.inj (h.symm.trans hs)
    refine ⟨hf.length_eq.symm, ((List.forall₂_and_left _ _).2 ⟨halone, hf⟩).imp ?_⟩
    rintro block file ⟨hsplit, hfile⟩
    exact parse_eq_ok_iff.2 ⟨[block], hsplit, .cons hfile .nil⟩

/-- A hunk that is longer than declared on one side and one that is shorter, with lines around the
blocks that belong to none. -/
def misfit : String :=
  "words\n\ndiff a b\n\n@@ -1,2 +1 @@\n+b\n+c\n\n-d\n-- \n2\n--- y\n+++ y\n@@ -1,5 +1 @@\n+++ z\n"

/-- The blocks of these hunks. -/
def misfitBlocks : List Block :=
  [["diff a b", "@@ -1,2 +1 @@", "+b", "+c", "", "-d"].map String.toList,
   ["--- y", "+++ y", "@@ -1,5 +1 @@", "+++ z"].map String.toList]

/-- A patch with a signature, and a new file behind it. -/
def signed : String := "--- a/x\n+++ b/x\n@@ -1 +0,0 @@\n--- y\n\n-- \n2\n--- /dev/null\n+++ z\n"

/-- The blocks of the patch and of the new file. -/
def signedBlocks : List Block :=
  [["--- a/x", "+++ b/x", "@@ -1 +0,0 @@", "--- y"].map String.toList,
   ["--- /dev/null", "+++ z"].map String.toList]

/-- What these blocks say. -/
def signedFiles : List FileChange :=
  [⟨"x", none, .modified, "Unknown", false, [⟨.removed, "-- y", some 1⟩]⟩,
   ⟨"z", none, .added, "Unknown", false, []⟩]

/-- The misfit hunks stay in their blocks, and the files of the signed patch in theirs. -/
theorem split_stable_misfit :
    (Block.split misfit = .ok misfitBlocks ∧
      Block.split (String.join (misfitBlocks.map Block.text)) = .ok misfitBlocks ∧
      ∀ block ∈ misfitBlocks, Block.split block.text = .ok [block]) ∧
    Block.split signed = .ok signedBlocks ∧ parse signed = .ok ⟨signedFiles⟩ ∧
      List.Forall₂ (fun block file => parse (Block.text block) = .ok ⟨[file]⟩)
        signedBlocks signedFiles := by
  have h : Block.split misfit = .ok misfitBlocks := rfl
  have hm : Block.split signed = .ok signedBlocks := rfl
  have hp : parse signed = .ok ⟨signedFiles⟩ := rfl
  exact ⟨⟨h, (split_stable h).1, (split_stable h).2.1⟩, hm, hp, ((split_stable hm).2.2 _ hp).2⟩

end ParsedDiff
end DiffReview
