import DiffReview.Proofs.Diff.Location
import DiffReview.Proofs.Scan.Opener
import DiffReview.Proofs.Text.OneLine

/-!
# What a parse error says

The message of a parse error is one line, which may bring its newline along, and the text of its
block does not begin with a newline. So a report that puts an empty line between them can be taken
apart again.
-/
namespace DiffReview

namespace PatchReader

/-- The reason why a line is not read is a fixed text, or such a text and the line. -/
theorem reason_of_readLine {r : PatchReader} {line : Line} {fault : BlockFault}
    (h : r.readLine line = .error (.fault fault)) : ∃ text : String, '\n' ∉ text.toList ∧
      (fault.reason = text ∨ fault.reason = text ++ Line.completed line) := by
  unfold readLine at h
  split at h
  · unfold readBody at h
    repeat' split at h
    all_goals cases h
    · exact ⟨_, by decide, .inr rfl⟩
    · exact ⟨_, by decide, .inl rfl⟩
  · unfold readHeading at h
    cases hl : Heading.ofLine line with
    | target path =>
      simp only [hl, readTarget] at h
      repeat' split at h
      all_goals cases h
      all_goals exact ⟨_, by decide, .inr rfl⟩
    | note =>
      simp only [hl] at h
      repeat' split at h
      all_goals cases h
      · exact ⟨_, by decide, .inr rfl⟩
      · exact ⟨_, by decide, .inl rfl⟩
    | _ =>
      simp only [hl] at h
      repeat' split at h
      all_goals cases h
      all_goals exact ⟨_, by decide, .inr rfl⟩

end PatchReader

namespace Block

variable {block : Block} {e : ParseError}

/-- A block that is not read is reported in one line. -/
theorem oneLine_message (hnewline : ∀ line ∈ block, '\n' ∉ line)
    (h : block.fileChange = .error (.rejected e)) : Text.OneLine e.message.toList := by
  have hreason {fault : BlockFault} (hf : Patch.ofBlock block = .error (.fault fault)) :
      Text.OneLine fault.reason.toList := by
    unfold Patch.ofBlock at hf
    split at hf
    · rename_i stop hs
      obtain rfl := Except.error.inj hf
      obtain ⟨line, hline, r, hr⟩ := exists_of_foldlM_eq_error hs
      obtain ⟨text, htext, hreason | hreason⟩ := PatchReader.reason_of_readLine hr
      · rw [hreason]
        exact .of_not_mem htext
      · rw [hreason, String.toList_append, Line.completed, String.toList_ofList]
        exact Text.oneLine_append htext (Text.oneLine_completed (hnewline line hline))
    · unfold PatchReader.finish at hf
      repeat' split at hf
      all_goals cases hf
      exact .of_not_mem (by decide)
  unfold fileChange at h
  split at h
  · rename_i stop hs
    cases stop with
    | numeral => cases h
    | fault fault =>
      cases h
      simp only [ParseError.message, String.toList_append]
      exact Text.oneLine_append (by decide) (hreason hs)
  · split at h <;> cases h
  · cases h
    simp only [ParseError.message, String.toList_append]
    exact Text.oneLine_append (by decide) (.of_not_mem (Text.newline_not_mem_toString _))

/-- The text of a block begins with a newline only if its first line is empty. -/
theorem head?_text (hnewline : ∀ line ∈ block, '\n' ∉ line) (hfirst : block.head? ≠ some []) :
    block.text.toList.head? ≠ some '\n' := by
  match block with
  | [] => simp [text]
  | [] :: _ => exact absurd rfl hfirst
  | (c :: line) :: rest =>
    have hc : c ≠ '\n' := by
      rintro rfl
      exact hnewline _ List.mem_cons_self List.mem_cons_self
    simpa [text] using hc

/-- A line that opens a block is not empty. -/
theorem head?_of_begins (h : block.Begins) : block.head? ≠ some [] := by
  cases block with
  | nil => cases h
  | cons line rest =>
    intro hl
    obtain rfl := Option.some.inj hl
    rcases h with h | ⟨h, -⟩ | h <;> cases h

/-- The block that a run leaves open is empty or one of its blocks. -/
theorem current_eq_nil_or_mem {t : ScanState} {placed : List (Placement × Line)}
    {next : Option Line} (h : Scan.Run {} placed next t) :
    current placed = [] ∨ current placed ∈ ofPlaced placed := by
  rw [current_eq_of_run h]
  split
  · exact .inl rfl
  · exact List.mem_cons.1 (List.getLastD_mem_cons ..)

end Block

namespace ParsedDiff

/-- What is said of a line that cannot be placed is one line, and the block does not begin with a
newline: it begins with a line that opened it, or with that line, which is not blank. -/
theorem report_of_split {text : String} {e : ParseError}
    (h : Block.split text = .error (.rejected e)) :
    Text.OneLine e.message.toList ∧ e.blockText.toList.head? ≠ some '\n' := by
  obtain ⟨placed, t, fault, line, rest, hl, hr, hp, rfl⟩ := Block.exists_run_of_ofLines h
  have hnewline : ∀ l ∈ placed.map Prod.snd ++ line :: rest, '\n' ∉ l := fun l hm =>
    Text.newline_not_mem_of_mem_lines (hl ▸ hm)
  have hline : '\n' ∉ line := hnewline line (by simp)
  have hempty : line ≠ [] := by
    rintro rfl
    cases ScanState.not_isBlank_of_place hp
  have hend := hr.to_stop hp
  constructor
  · have hreason : '\n' ∉ fault.reason.toList := by cases fault <;> decide
    have htrim : '\n' ∉ Text.trimEnd Text.isBlank line := fun hm =>
      hline ((Text.trimEnd_prefix _ line).subset hm)
    refine .of_not_mem ?_
    simp [ParseError.message, hreason, htrim]
  · rcases Block.current_eq_nil_or_mem hend with hc | hc
    · exact Block.head?_text (by simpa [hc] using hline) (by simpa [hc] using hempty)
    · have hlines : ∀ l ∈ Block.current placed ++ [line], '\n' ∉ l := by
        intro l hm
        rcases List.mem_append.1 hm with hm | hm
        · exact hnewline l (List.mem_append_left _ (Block.mem_of_mem_ofPlaced hc hm))
        · exact List.mem_singleton.1 hm ▸ hline
      have hbegins := hend.begins (by simp [ScanState.Heralds]) _ hc
      refine Block.head?_text hlines ?_
      cases hcurrent : Block.current placed with
      | nil => simpa using hempty
      | cons first others => simpa [hcurrent] using Block.head?_of_begins hbegins

/-- A parse error is reported in one line, and its block does not begin with a newline. -/
theorem report_of_parse {text : String} {e : ParseError}
    (h : parse text = .error (.rejected e)) :
    Text.OneLine e.message.toList ∧ e.blockText.toList.head? ≠ some '\n' := by
  rcases rejected_cases h with hs | ⟨before, after, files, hs, -, hblock⟩
  · exact report_of_split hs
  · obtain ⟨placed, t, hr, hl, hb⟩ := Block.ofLines_eq_ok_iff.1 hs
    have hmem : e.block ∈ Block.ofPlaced placed := by simp [← hb]
    have hnewline : ∀ line ∈ e.block, '\n' ∉ line := fun line hm =>
      Text.newline_not_mem_of_mem_lines (hl ▸ Block.mem_of_mem_ofPlaced hmem hm)
    have hbegins := hr.begins (by simp [ScanState.Heralds]) _ hmem
    exact ⟨Block.oneLine_message hnewline hblock,
      Block.head?_text hnewline (Block.head?_of_begins hbegins)⟩

end ParsedDiff
end DiffReview
