import DiffReview.Proofs.Diff.Stability
import DiffReview.Proofs.Scan.History
import DiffReview.Proofs.Scan.Opener
import DiffReview.Proofs.Text.Whole
import Mathlib.Data.List.Induction

/-!
# What splitting keeps

The blocks of a diff hold its lines in their order, each once. A line is left out for one of three
reasons only: no block is open and the line opens none, it is the signature that closes a block
behind a hunk, or it is blank and stands outside all hunk bodies. Where no line gives such a
reason, the blocks put together are the whole diff.
-/
namespace DiffReview

namespace Scan

/-- Why a line stands in no block, told from the lines placed before it. -/
inductive LeftOut (before : List (Placement × Line)) (p : Placement) (line : Line)
    (next : Option Line) : Prop
  | between (h : NoneOpen before) (ho : ¬ line.Opens next)
  | signature (h : ¬ NoneOpen before) (hh : HunkSeen before) (hp : p ≠ .body)
      (hs : Line.isSignature line = true)
  | blank (hp : p ≠ .body) (hb : Line.isBlank line = true)

namespace LeftOut

variable {before : List (Placement × Line)} {s t : ScanState} {line : Line} {next : Option Line}
  {p : Placement}

/-- A line that is dropped gives a reason. -/
theorem of_not_isKept (hr : Recalls before s) (hc : s.Coherent (some line))
    (h : s.place line next = .ok (p, t)) (hk : Block.isKept (p, line) = false) :
    LeftOut before p line next := by
  cases hi : s.inside with
  | false =>
    have ho := ScanState.opens_iff_of_not_inside hi (hc.closed hi).1 h
    refine .between (hr.noneOpen_iff.2 hi) fun hopens => ?_
    rw [ho.2 hopens] at hk
    simp [Block.isKept] at hk
  | true =>
    have hopen : ¬ NoneOpen before := fun hn => by simp [hr.noneOpen_iff.1 hn] at hi
    rcases ScanState.place_eq_ok_iff.1 h with ⟨-, -, rfl, -⟩ | ⟨-, ho⟩
    · simp [Block.isKept] at hk
    · cases ho with
      | otherSkipped _ hs => exact .blank (by simp) (hs.resolve_left (by simp [hi]))
      | signature _ _ _ hh hs =>
        exact .signature hopen ((hr.hunkSeen_iff hi).2 (by simpa using hh)) (by simp) hs
      | noteSkipped _ hi' => simp [hi] at hi'
      | sourceSkipped _ _ hi' => simp [hi] at hi'
      | _ => simp [Block.isKept] at hk

/-- A line that gives a reason is dropped. -/
theorem not_isKept (hl : LeftOut before p line next) (hr : Recalls before s)
    (hc : s.Coherent (some line)) (h : s.place line next = .ok (p, t)) :
    Block.isKept (p, line) = false := by
  cases hl with
  | between hn ho =>
    have hi := hr.noneOpen_iff.1 hn
    rcases ScanState.opens_or_skipped_of_not_inside hi h with rfl | rfl
    · exact absurd ((ScanState.opens_iff_of_not_inside hi (hc.closed hi).1 h).1 rfl) ho
    · rfl
  | signature hn hh hp hs =>
    have hm := Line.mark_of_isSignature hs
    have hi : s.inside = true := by simpa using fun hi => hn (hr.noneOpen_iff.2 hi)
    have hhad : s.leaveBody.hadHunk = true := by simpa using (hr.hunkSeen_iff hi).1 hh
    rcases ScanState.place_eq_ok_iff.1 h with ⟨-, -, rfl, -⟩ | ⟨-, ho⟩
    · exact absurd rfl hp
    · cases ho with
      | otherSkipped => rfl
      | signature => rfl
      | _ => simp_all
  | blank hp hb =>
    have hm := Line.mark_of_isBlank hb
    rcases ScanState.place_eq_ok_iff.1 h with ⟨-, -, rfl, -⟩ | ⟨-, ho⟩
    · exact absurd rfl hp
    · cases ho with
      | otherSkipped => rfl
      | signature => rfl
      | _ => simp_all

end LeftOut

/-- The lines that a run drops are those that give a reason. -/
theorem Run.isKept_eq_false_iff {t : ScanState} {before after : List (Placement × Line)}
    {p : Placement} {line : Line} (h : Run {} (before ++ (p, line) :: after) none t) :
    Block.isKept (p, line) = false ↔ LeftOut before p line (after.head?.map Prod.snd) := by
  obtain ⟨s, h₁, h₂⟩ := h.of_append
  have hr : Recalls before s := h₁.recalls
  have hc : s.Coherent (some line) := h₁.coherent (ScanState.coherent_initial _)
  cases h₂ with
  | step hp _ =>
    have hnext : upcoming after none = after.head?.map Prod.snd := Option.or_none
    rw [hnext] at hp
    exact ⟨LeftOut.of_not_isKept hr hc hp, fun hl => hl.not_isKept hr hc hp⟩

/-- Where the first line opens a block and no later one gives a reason, every line is kept. -/
theorem Run.forall_isKept {t : ScanState} {placed : List (Placement × Line)}
    (h : Run {} placed none t)
    (hfirst : ∀ line rest, placed.map Prod.snd = line :: rest → line.Opens rest.head?)
    (hclean : ∀ before p line after, placed = before ++ (p, line) :: after → p ≠ .body →
      Line.isBlank line = false ∧ ¬ (HunkSeen before ∧ Line.isSignature line = true)) :
    ∀ q ∈ placed, Block.isKept q = true := by
  -- By induction on the lines so far: all of them are kept, so the block of the first is open.
  suffices hall : ∀ before after, placed = before ++ after → ∀ q ∈ before, Block.isKept q = true
    from hall placed [] (by simp)
  intro before
  induction before using List.reverseRecOn with
  | nil => simp
  | append_singleton before q ih =>
    intro after hsplit
    rw [List.append_assoc, List.singleton_append] at hsplit
    have hkept := ih (q :: after) hsplit
    obtain ⟨p, line⟩ := q
    rw [hsplit] at h
    suffices hq : Block.isKept (p, line) = true from
      List.forall_mem_append.2 ⟨hkept, List.forall_mem_singleton.2 hq⟩
    by_contra hq
    rw [Bool.not_eq_true, h.isKept_eq_false_iff] at hq
    cases hq with
    | signature _ hh hp hs => exact (hclean _ _ _ _ hsplit hp).2 ⟨hh, hs⟩
    | blank hp hb => simp [(hclean _ _ _ _ hsplit hp).1] at hb
    | between hn ho =>
      cases before with
      | nil =>
        have hnext : after.head?.map Prod.snd = (after.map Prod.snd).head? := by simp
        exact ho (hnext ▸ hfirst line (after.map Prod.snd) (by simp [hsplit]))
      | cons first rest =>
        obtain ⟨p₀, line₀⟩ := first
        have hk₀ := hkept (p₀, line₀) (by simp)
        obtain rfl : p₀ = .opens := by
          cases h with
          | step hp₀ _ =>
            refine (ScanState.opens_or_skipped_of_not_inside rfl hp₀).resolve_right ?_
            rintro rfl
            simp [Block.isKept] at hk₀
        have hopens : (.opens, line₀) ∈ (.opens, line₀) :: rest := List.mem_cons_self
        refine not_noneOpen hopens (fun r hr hclosed => ?_) hn
        have hk := hkept r hr
        rw [Block.isKept, hclosed] at hk
        simp at hk

end Scan

namespace Block

/-- The blocks of a diff hold lines of the diff in their order. The lines that are left out are
those that give a reason, and each block begins with a line that opens one. If the first line of
the diff opens a block and no line outside hunk bodies is blank or the signature behind a hunk, the
blocks together are the whole diff. -/
theorem split_keeps {text : String} {blocks : List Block} (h : split text = .ok blocks) :
    ∃ placed : List (Placement × Line),
      Scan.ofLines (Text.lines text.toList) = ⟨placed, none⟩ ∧
      placed.map Prod.snd = Text.lines text.toList ∧
      blocks.flatten = (placed.filter isKept).map Prod.snd ∧
      blocks.flatten.Sublist (Text.lines text.toList) ∧
      (∀ i p line, placed[i]? = some (p, line) →
        (isKept (p, line) = false ↔
          Scan.LeftOut (placed.take i) p line (placed[i + 1]?.map Prod.snd))) ∧
      (∀ block ∈ blocks, block.Begins) ∧
      ((∀ line rest, Text.lines text.toList = line :: rest → line.Opens rest.head?) →
        (∀ i p line, placed[i]? = some (p, line) → p ≠ .body →
          Line.isBlank line = false ∧
            ¬ (Scan.HunkSeen (placed.take i) ∧ Line.isSignature line = true)) →
        String.join (blocks.map Block.text) =
          if Text.Whole text.toList then text else text ++ "\n") := by
  obtain ⟨placed, t, hr, hl, rfl⟩ := ofLines_eq_ok_iff.1 h
  have hflat : (ofPlaced placed).flatten = (placed.filter isKept).map Prod.snd := by
    rw [← flatten_gather, hr.gather_fst_eq_nil rfl]
    rfl
  refine ⟨placed, ?_, hl, hflat, ?_, ?_, ?_, fun hfirst hclean => ?_⟩
  · rw [← hl, Scan.ofLines, hr.after_eq]
  · rw [hflat, ← hl]
    exact List.filter_sublist.map _
  · intro i p line hi
    have hsplit := eq_take_append_of_getElem? hi
    rw [hsplit] at hr
    simpa using hr.isKept_eq_false_iff
  · exact hr.begins (by simp [ScanState.Heralds])
  · have hall := hr.forall_isKept (by rwa [hl]) fun before p line after hsplit =>
      by simpa [hsplit] using hclean before.length p line (by simp [hsplit])
    rw [join_map_text, hflat, List.filter_eq_self.2 hall, hl, Block.text, Text.join_lines]
    split
    · exact String.ofList_toList
    · simp [String.ofList_append]

/-- A block that ends without a newline, in front of which another has a line that is a signature
only where a hunk has been seen. -/
def unsigned : String :=
  "diff a b\n--\n--- x\n+++ x\n@@ -1 +0,0 @@\n--- y\nBinary files a and b differ"

/-- The placements of its lines. -/
def unsignedPlaced : List (Placement × Line) :=
  [(.opens, "diff a b".toList), (.continues, "--".toList), (.continues, "--- x".toList),
   (.continues, "+++ x".toList), (.continues, "@@ -1 +0,0 @@".toList), (.body, "--- y".toList),
   (.opens, "Binary files a and b differ".toList)]

/-- Between the misfit hunks lines are left out; without a signature nothing is. -/
theorem split_keeps_unsigned :
    (split ParsedDiff.misfit = .ok ParsedDiff.misfitBlocks ∧
      ParsedDiff.misfitBlocks.flatten.Sublist (Text.lines ParsedDiff.misfit.toList) ∧
      ∀ block ∈ ParsedDiff.misfitBlocks, block.Begins) ∧
    split unsigned = .ok (ofPlaced unsignedPlaced) ∧
      String.join ((ofPlaced unsignedPlaced).map Block.text) = unsigned ++ "\n" := by
  have h : split ParsedDiff.misfit = .ok ParsedDiff.misfitBlocks := rfl
  have hu : split unsigned = .ok (ofPlaced unsignedPlaced) := rfl
  obtain ⟨-, -, -, -, hsub, -, hbegins, -⟩ := split_keeps h
  obtain ⟨placed, hp, -, -, -, -, -, hwhole⟩ := split_keeps hu
  obtain rfl : unsignedPlaced = placed := congrArg Scan.placed hp
  refine ⟨⟨h, hsub, hbegins⟩, hu, hwhole ?_ ?_⟩
  · intro line rest hl
    cases hl
    decide
  · have hall : ∀ i : Fin unsignedPlaced.length, (unsignedPlaced.get i).1 ≠ .body →
        Line.isBlank (unsignedPlaced.get i).2 = false ∧
          ¬ (Scan.HunkSeen (unsignedPlaced.take i) ∧
            Line.isSignature (unsignedPlaced.get i).2 = true) := by decide
    intro i p line hi hbody
    obtain ⟨hlt, hget⟩ := List.getElem?_eq_some_iff.1 hi
    have hline := hall ⟨i, hlt⟩
    rw [List.get_eq_getElem, hget] at hline
    exact hline hbody

end Block
end DiffReview
