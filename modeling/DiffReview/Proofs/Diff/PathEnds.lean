import DiffReview.Proofs.Diff.LineEnds
import DiffReview.Proofs.Patch.Headings
import DiffReview.Proofs.Text.Whole
import DiffReview.Proofs.Written.Heading

/-!
# Paths that take the end of their line

A new path that no tab ends goes on to the end of its line. With carriage returns at the ends of the
lines it takes one in, and nothing later in the block gives the file another name: a file mode that
a carriage return follows is none.
-/
namespace DiffReview

namespace Text

/-- The lines of whole lines with carriage returns all end in one. -/
theorem lines_crlf_of_whole {text : List Char} (h : Whole text) :
    lines (crlf text) = (lines text).map (· ++ ['\r']) := by
  induction text with
  | nil => rfl
  | cons c text ih =>
    by_cases hn : c = '\n'
    · subst hn
      have ht : Whole text := by
        cases text with
        | nil => exact .inl rfl
        | cons d text => exact .inr (by simpa [Whole] using h)
      rw [crlf_newline, lines_cons, lines_cons, lines_cons, ih ht]
      rfl
    · obtain ⟨d, text, rfl⟩ : ∃ d rest, text = d :: rest := by
        refine List.exists_cons_of_ne_nil ?_
        rintro rfl
        exact hn (by simpa [Whole] using h)
      have ht : Whole (d :: text) := .inr (by simpa [Whole] using h)
      have hne : lines (d :: text) ≠ [] := prepend_ne_nil d _
      rw [crlf_cons_of_ne hn, lines_cons, lines_cons, ih ht]
      obtain ⟨line, rest, hl⟩ := List.exists_cons_of_ne_nil hne
      simp [hl, prepend, hn]

end Text

/-- A line that ends in a carriage return has it from the other line. -/
theorem Line.EndsAlike.eq_of_getLast? {line other : Line} (h : line.EndsAlike other)
    (hr : other.getLast? = some '\r') : other = line ++ ['\r'] := by
  refine h.eq.resolve_left ?_
  rintro rfl
  exact h.clean (List.mem_of_getLast? hr)

namespace Heading

/-- Without a tab a text that holds a location ends in one. -/
theorem eq_of_throughLocation? {s t : List Char} (hs : '\t' ∉ s) (h : throughLocation? s = some t) :
    t = s := by
  induction s generalizing t with
  | nil => cases h
  | cons c s ih =>
    rw [throughLocation?] at h
    split at h
    · rename_i u hu
      cases h
      rw [ih (fun hm => hs (List.mem_cons_of_mem _ hm)) hu]
    · split at h
      · rename_i rest hp
        have he : schemeMark ++ rest = c :: s := List.isPrefixOf?_eq_some_iff_append_eq.1 hp
        have hr : '\t' ∉ rest := fun hm => hs (he ▸ List.mem_append_right _ hm)
        rw [untilTab_of_not_mem hr] at h
        split_ifs at h
        cases h
        exact he
      · cases h

/-- Without a tab the paths of a command line are its two sides. -/
theorem eq_of_paths? {s old new : List Char} (hs : '\t' ∉ s) (h : paths? s = some (old, new)) :
    s = old ++ ' ' :: new ∧ old ≠ [] ∧ new ≠ [] := by
  have hp : rootedPaths? s = some (old, new) ∨ locations? s = some (old, new) ∨
      plainPaths? s = some (old, new) := by
    unfold paths? at h
    cases hr : rootedPaths? s <;> cases hl : locations? s <;> simp_all
  rcases hp with hp | hp | hp
  · rw [rootedPaths?, untilTab_of_not_mem hs] at hp
    obtain ⟨hcut, ho, hn⟩ := eq_of_lastCut? hp
    refine ⟨hcut, ?_, ?_⟩
    · rintro rfl
      cases ho
    · rintro rfl
      cases hn
  · unfold locations? at hp
    split at hp
    · rename_i l rest hc
      obtain ⟨hcut, ho, -⟩ := eq_of_lastCut? hc
      obtain ⟨u, hu, he⟩ := Option.map_eq_some_iff.1 hp
      cases he
      have hrest : '\t' ∉ rest := fun hm => hs (by simp [hcut, hm])
      obtain rfl := eq_of_throughLocation? hrest hu
      refine ⟨hcut, ?_, ?_⟩
      · rintro rfl
        exact absurd ho (by decide)
      · rintro rfl
        cases hu
    · cases hp
  · rw [plainPaths?, untilTab_of_not_mem hs] at hp
    obtain ⟨hcut, ho, hn⟩ := eq_of_lastCut? hp
    exact ⟨hcut, by simpa using ho, by simpa using hn⟩

/-- Where a cut passes the tests, one is found. -/
theorem isSome_lastCut? {front back : List Char → Bool} {l r : List Char} (hl : front l = true)
    (hr : back r = true) : (lastCut? front back (l ++ ' ' :: r)).isSome = true := by
  have hbefore (before after : List Char) (h : before.reverse ++ after = r) :
      (lastCutBefore? front back (before ++ ' ' :: l.reverse) after).isSome = true := by
    induction before generalizing after with
    | nil =>
      obtain rfl : after = r := h
      simp [lastCutBefore?, hl, hr]
    | cons c before ih =>
      rw [List.cons_append, lastCutBefore?]
      split
      · rfl
      · exact ih (c :: after) (by simpa using h)
  have hw : (l ++ ' ' :: r).reverse = r.reverse ++ ' ' :: l.reverse := by simp
  rw [lastCut?, hw]
  exact hbefore r.reverse [] (by simp)

/-- Without a tab two words are enough for a command line. -/
theorem isSome_paths? {l r : List Char} (hs : '\t' ∉ l ++ ' ' :: r) (hl : l ≠ []) (hr : r ≠ []) :
    (paths? (l ++ ' ' :: r)).isSome = true := by
  have hplain : (plainPaths? (l ++ ' ' :: r)).isSome = true := by
    rw [plainPaths?, untilTab_of_not_mem hs]
    exact isSome_lastCut? (by simpa using hl) (by simpa using hr)
  rw [paths?]
  cases rootedPaths? (l ++ ' ' :: r) <;> cases locations? (l ++ ' ' :: r) <;> simp [hplain]

/-- With a carriage return behind it, the command line has a new side that ends in one. -/
theorem exists_paths?_return {s : List Char} (hs : '\t' ∉ s) {old new : List Char}
    (h : paths? s = some (old, new)) : ∃ old' new', paths? (s ++ ['\r']) = some (old', new') ∧
      new'.getLast? = some '\r' := by
  obtain ⟨rfl, ho, hn⟩ := eq_of_paths? hs h
  have he : old ++ ' ' :: new ++ ['\r'] = old ++ ' ' :: (new ++ ['\r']) := by simp
  have hs' : '\t' ∉ old ++ ' ' :: (new ++ ['\r']) := by
    rw [← he]
    simpa using hs
  obtain ⟨⟨old', new'⟩, hp⟩ := Option.isSome_iff_exists.1 (isSome_paths? hs' ho (by simp))
  obtain ⟨hcut, -, hn'⟩ := eq_of_paths? hs' hp
  obtain ⟨front, c, rfl⟩ := (List.eq_nil_or_concat' new').resolve_left hn'
  have hlast := congrArg List.getLast? hcut
  rw [← List.cons_append, ← List.append_assoc, List.getLast?_concat, ← List.cons_append,
    ← List.append_assoc, List.getLast?_concat] at hlast
  exact ⟨old', front ++ [c], by rw [he, hp], by rw [List.getLast?_concat, ← hlast]⟩

/-- A line that is a command has the mark of one and two paths. -/
theorem exists_of_ofLine_eq_command {line : Line} {old new : List Char}
    (h : ofLine line = .command old new) :
    ∃ rest, line = "diff --git ".toList ++ rest ∧ paths? rest = some (old, new) := by
  cases h ▸ spelled_ofLine line with
  | command hp => exact ⟨_, rfl, hp⟩

/-- A line that ends in a carriage return deletes no file. -/
theorem ofLine_ne_deletedFile {line : Line} (h : line.getLast? = some '\r') :
    ofLine line ≠ .deletedFile := by
  intro he
  cases he ▸ spelled_ofLine line with
  | @deletedFile mode hm =>
    have hall : ∀ c ∈ mode, Text.isDigit c = true := by
      simp only [isMode, Bool.and_eq_true] at hm
      exact List.all_eq_true.1 hm.2
    have hne : mode ≠ [] := by
      rintro rfl
      cases hm
    rw [List.getLast?_append_of_ne_nil _ hne] at h
    exact absurd (hall '\r' (List.mem_of_getLast? h)) (by decide)

end Heading

namespace PatchReader

/-- The new paths of all patches read so far. -/
def targets (r : PatchReader) : List (List Char) := r.patches.map Patch.target

theorem targets_update (r : PatchReader) {f : Patch → Patch}
    (h : ∀ patch, (f patch).target = patch.target) : (r.update f).targets = r.targets := by
  cases hc : r.current <;> simp [targets, patches, update, hc, h]

theorem targets_resume (r : PatchReader) (hunk : OpenHunk) :
    (r.resume hunk).targets = r.targets := by
  unfold resume
  split
  · exact targets_update r fun _ => rfl
  · rfl

theorem targets_changes {heading : Heading} {f : Patch → Patch} (h : heading.Changes f)
    (hd : heading ≠ .deletedFile) (r : PatchReader) : (r.update f).targets = r.targets := by
  cases h with
  | deletedFile => exact absurd rfl hd
  | newFile => exact targets_update r fun _ => rfl
  | binary => exact targets_update r fun _ => rfl
  | binaryPatch => exact targets_update r fun _ => rfl

/-- A heading that deletes no file leaves the new paths as they are, and may add one. -/
theorem HeadingStep.targets_prefix {r q : PatchReader} {heading : Heading}
    (h : r.HeadingStep heading q) (hd : heading ≠ .deletedFile) : r.targets <+: q.targets := by
  have hsame (hq : q.targets = r.targets) : r.targets <+: q.targets := hq ▸ List.prefix_rfl
  rcases h.patches_cases with ⟨hp, -⟩ | ⟨patch, -, hp⟩ | ⟨f, hchanges, -, hp⟩
  · exact hsame (congrArg (List.map Patch.target) hp)
  · have hq : q.targets = r.targets ++ [patch.target] := by
      rw [targets, hp, List.map_append]
      rfl
    exact ⟨_, hq.symm⟩
  · have hq : q.targets = (r.update f).targets := congrArg (List.map Patch.target) hp
    exact hsame (hq.trans (targets_changes hchanges hd r))

/-- The patches in the end have the new paths read so far, if no line deletes a file. -/
theorem targets_prefix_of_completes {lines : List Line} {r : PatchReader} {patches : List Patch}
    (h : r.Completes lines patches)
    (hd : ∀ line ∈ lines, Heading.ofLine line ≠ .deletedFile) :
    r.targets <+: patches.map Patch.target := by
  obtain ⟨q, hq, rfl⟩ := Completes.preserves
    (P := fun before q => (∀ line ∈ before, Heading.ofLine line ≠ .deletedFile) →
      r.targets <+: q.targets)
    (fun later hs _ hb => (targets_resume _ later).symm ▸ hs hb)
    (fun hs _ hstep hb => (hs fun line hl => hb line (List.mem_append_left _ hl)).trans
      (hstep.targets_prefix (hb _ (by simp))))
    h [] fun _ => List.prefix_rfl
  exact hq fun line hl => hd line (headings_subset hl)

/-- What is read first from a command line. -/
theorem eq_of_command {m : PatchReader} {line : Line} {old new : List Char}
    (hl : Heading.ofLine line = .command old new) (h : ({} : PatchReader).readLine line = .ok m) :
    m = ⟨[], some ⟨old, new, false, []⟩, true, none, none⟩ := by
  have hr : ({} : PatchReader).readHeading line = .ok m := h
  rw [readHeading, hl] at hr
  cases hr
  rfl

/-- What is read first from a source line and a target line. -/
theorem eq_of_paths {m q : PatchReader} {source target : List Char} (ht : '\t' ∉ target)
    (hs : ({} : PatchReader).readLine (Mark.sourceMark ++ source) = .ok m)
    (h : m.readLine (Mark.targetMark ++ target) = .ok q) :
    q = ⟨[], some ⟨Heading.untilTab source, target, false, []⟩, false, none, none⟩ := by
  cases hs
  have hl := Heading.ofLine_target target ht
  have hr : PatchReader.readHeading ⟨[], none, false, some (Heading.untilTab source), none⟩
      (Mark.targetMark ++ target) = .ok q := h
  rw [readHeading, hl] at hr
  cases hr
  rfl

end PatchReader

namespace Patch

/-- A new path that ends in a carriage return gives it to the file name. -/
theorem getLast?_filename {patch : Patch} {file : FileChange}
    (h : patch.fileChange? = some file) (ht : patch.target.getLast? = some '\r') :
    file.filename.toList.getLast? = some '\r' := by
  have hnew : (stripRoot 'b' patch.target).getLast? = some '\r' := by
    unfold stripRoot
    cases hp : ['b', '/'].isPrefixOf? patch.target with
    | none => exact ht
    | some rest =>
      have he : ['b', '/'] ++ rest = patch.target := List.isPrefixOf?_eq_some_iff_append_eq.1 hp
      have hne : rest ≠ [] := by
        rintro rfl
        rw [← he] at ht
        exact absurd ht (by decide)
      rw [← he, List.getLast?_append_of_ne_nil _ hne] at ht
      exact ht
  have hfile : stripRoot 'b' patch.target ≠ noFile := by
    intro he
    rw [he] at hnew
    exact absurd hnew (by decide)
  have hstatus : status (stripRoot 'a' patch.source) (stripRoot 'b' patch.target) ≠ .deleted := by
    unfold status
    split_ifs <;> simp_all
  obtain ⟨changes, -, rfl⟩ := Option.map_eq_some_iff.1 h
  simp only [if_neg hstatus, String.toList_ofList]
  exact hnew

end Patch

namespace Block

/-- The block begins with the lines that name its new path, and the path goes on to the end of its
line. -/
inductive NamesToEnd : Block → Prop
  | command {line : Line} {old new : List Char} (rest : Block)
      (heading : Heading.ofLine line = .command old new) (noTab : '\t' ∉ line) :
      NamesToEnd (line :: rest)
  | paths {source target : List Char} (rest : Block) (noTab : '\t' ∉ target) :
      NamesToEnd ((Mark.sourceMark ++ source) :: (Mark.targetMark ++ target) :: rest)

/-- A block whose lines end in carriage returns, as those of a block that names its new path up to
the end of the line, has a new path that ends in one. -/
theorem exists_target_of_endsAlike {block other : Block} (h : EndsAlike block other)
    (hr : ∀ line ∈ other, line.getLast? = some '\r') (hn : NamesToEnd block)
    {patches : List Patch} (hc : ({} : PatchReader).Completes other patches) :
    ∃ path, [path] <+: patches.map Patch.target ∧ path.getLast? = some '\r' := by
  have hd : ∀ line ∈ other, Heading.ofLine line ≠ .deletedFile := fun line hl =>
    Heading.ofLine_ne_deletedFile (hr line hl)
  cases hn with
  | @command line old new rest heading noTab =>
    obtain ⟨paths, rfl, hp⟩ := Heading.exists_of_ofLine_eq_command heading
    cases h with
    | @cons _ line' _ rest' hl hrest =>
      obtain rfl := hl.eq_of_getLast? (hr line' List.mem_cons_self)
      obtain ⟨old', new', hp', hlast⟩ :=
        Heading.exists_paths?_return (fun hm => noTab (List.mem_append_right _ hm)) hp
      obtain ⟨m, hm, hcm⟩ := PatchReader.completes_cons.1 hc
      refine ⟨new', ?_, hlast⟩
      rw [List.append_assoc] at hm
      obtain rfl := PatchReader.eq_of_command (Heading.ofLine_of_paths? hp') hm
      exact PatchReader.targets_prefix_of_completes hcm fun line hl =>
        hd line (List.mem_cons_of_mem _ hl)
  | @paths source target rest noTab =>
    cases h with
    | @cons _ sourceLine _ rest' hs hrest =>
      cases hrest with
      | @cons _ targetLine _ rest' ht hrest =>
        obtain rfl := hs.eq_of_getLast? (hr sourceLine (by simp))
        obtain rfl := ht.eq_of_getLast? (hr targetLine (by simp))
        obtain ⟨m, hm, hcm⟩ := PatchReader.completes_cons.1 hc
        obtain ⟨m', hm', hcm'⟩ := PatchReader.completes_cons.1 hcm
        refine ⟨target ++ ['\r'], ?_, List.getLast?_concat⟩
        have ht' : '\t' ∉ target ++ ['\r'] := by simpa using noTab
        rw [List.append_assoc] at hm hm'
        obtain rfl := PatchReader.eq_of_paths ht' hm hm'
        exact PatchReader.targets_prefix_of_completes hcm' fun line hl =>
          hd line (List.mem_cons_of_mem _ (List.mem_cons_of_mem _ hl))

/-- With carriage returns at the ends of all lines, a block that names its new path up to the end of
the line is read, if at all, as a file whose name ends in a carriage return. -/
theorem getLast?_filename_of_endsAlike {block other : Block} (h : EndsAlike block other)
    (hr : ∀ line ∈ other, line.getLast? = some '\r') (hn : NamesToEnd block) {file : FileChange}
    (hf : fileChange other = .ok file) : file.filename.toList.getLast? = some '\r' := by
  obtain ⟨patch, hp, hdescribes⟩ := fileChange_eq_ok_iff.1 hf
  obtain ⟨path, hpath, hlast⟩ :=
    exists_target_of_endsAlike h hr hn (Patch.ofBlock_eq_ok_iff.1 hp)
  obtain rfl : path = patch.target := by simpa using hpath
  exact Patch.getLast?_filename hdescribes hlast

end Block

namespace ParsedDiff

/-- Whole lines with carriage returns are read, if at all, with one at the end of the name of every
file whose block names the new path up to the end of a line. -/
theorem getLast?_filename_of_parse_crlf {text : List Char} (ht : '\r' ∉ text)
    (hw : Text.Whole text) {blocks : List Block}
    (hs : Block.split (String.ofList text) = .ok blocks) {other : ParsedDiff}
    (h' : parse (String.ofList (Text.crlf text)) = .ok other) :
    List.Forall₂ (fun block file' => Block.NamesToEnd block →
      file'.filename.toList.getLast? = some '\r') blocks other.files := by
  obtain ⟨others, hs', hf'⟩ := parse_eq_ok_iff.1 h'
  obtain ⟨others₂, hs₂, ha⟩ := Block.split_crlf ht hs
  obtain rfl : others₂ = others := Except.ok.inj (hs₂.symm.trans hs')
  have hr : ∀ other ∈ others₂, ∀ line ∈ other, line.getLast? = some '\r' := by
    obtain ⟨placed, t, -, hlines, rfl⟩ := Block.ofLines_eq_ok_iff.1 hs'
    intro block hb line hl
    have hm := Block.mem_of_mem_ofPlaced hb hl
    rw [hlines, String.toList_ofList, Text.lines_crlf_of_whole hw] at hm
    obtain ⟨front, -, rfl⟩ := List.mem_map.1 hm
    exact List.getLast?_concat
  have hpairs := (List.forall₂_and_left _ _).2 ⟨hr, hf'⟩
  refine (forall₂_trans ha hpairs).imp ?_
  rintro block file' ⟨other, hends, hreturn, hfile⟩ hn
  exact Block.getLast?_filename_of_endsAlike hends hreturn hn hfile

end ParsedDiff
end DiffReview
