import DiffReview.Proofs.Diff.Consistency
import DiffReview.Proofs.Diff.PathEnds
import DiffReview.Proofs.Scan.Opener

/-!
# Notices about binary files

A patch begins with a command line, a target line or a notice. In a block that a notice opens none
of these comes later, since each of them opens a block of its own or is waited for by a source line.
So if the notice is not read as one, the block is read as no patch at all; else it is one binary
patch that nothing later touches.
-/
namespace DiffReview

namespace Line

/-- An end of the notice comes later in a text when it comes anywhere behind the first character. -/
theorem differsLater_cons_iff {c : Char} {text : List Char} :
    differsLater (c :: text) = true ↔ ∃ back, back <:+ text ∧ differs back = true := by
  induction text generalizing c with
  | nil => simp [differsLater]
  | cons d text ih =>
    rw [differsLater, Bool.or_eq_true, ih]
    simp only [List.suffix_cons_iff, or_and_right, exists_or, exists_eq_left]

end Line

namespace Heading

/-- A time stamp that is passed over is taken from the front. -/
theorem suffix_of_skipStamp? {text back : List Char} (h : skipStamp? text = some back) :
    back <:+ text := by
  unfold skipStamp? at h
  split at h
  · rename_i text
    split at h
    · rename_i c front hr
      cases h
      -- the space that ends the stamp is put back in front of what follows the stamp
      have ht : text.takeWhile isStampChar = (c :: front).reverse ++ [' '] := by
        simpa using congrArg List.reverse hr
      refine ⟨'\t' :: (c :: front).reverse, ?_⟩
      have he := List.takeWhile_append_dropWhile (p := isStampChar) (l := text)
      rw [ht] at he
      simpa using he
    · cases h
  · cases h
    exact List.suffix_rfl

/-- Behind a shortest name, which is not empty, comes a text that is accepted. -/
theorem exists_of_shortestName? {α : Type} {accept : List Char → Option α}
    {taken text name : List Char} {a : α} (h : shortestName? accept taken text = some (name, a)) :
    ∃ c back, c :: back <:+ text ∧ accept back = some a := by
  induction text generalizing taken with
  | nil => cases h
  | cons c text ih =>
    rw [shortestName?] at h
    split at h
    · cases h
    split at h
    · rename_i ha
      cases h
      exact ⟨c, text, List.suffix_rfl, ha⟩
    · obtain ⟨d, back, hback, ha⟩ := ih h
      exact ⟨d, back, hback.trans (List.suffix_cons c text), ha⟩

theorem exists_differs_of_secondName? {text name : List Char} (h : secondName? text = some name) :
    ∃ back, back <:+ text ∧ Line.differs back = true := by
  obtain ⟨⟨_, ⟨⟩⟩, hs, -⟩ := Option.map_eq_some_iff.1 h
  obtain ⟨c, later, hlater, ha⟩ := exists_of_shortestName? hs
  obtain ⟨back, hskip, hd⟩ := Option.bind_eq_some_iff.1 ha
  refine ⟨back, (suffix_of_skipStamp? hskip).trans ((List.suffix_cons c later).trans hlater), ?_⟩
  split at hd
  · assumption
  · cases hd

/-- Behind the first name comes an end of the notice. -/
theorem exists_differs_of_afterName? {text : List Char} {new : Option (List Char)}
    (h : afterName? text = some new) : ∃ back, back <:+ text ∧ Line.differs back = true := by
  obtain ⟨later, hskip, ha⟩ := Option.bind_eq_some_iff.1 h
  have hlater := suffix_of_skipStamp? hskip
  split at ha
  · rename_i second hp
    obtain ⟨name, hname, -⟩ := Option.map_eq_some_iff.1 ha
    obtain ⟨back, hback, hd⟩ := exists_differs_of_secondName? hname
    have hsecond : second <:+ later := ⟨_, List.isPrefixOf?_eq_some_iff_append_eq.1 hp⟩
    exact ⟨back, hback.trans (hsecond.trans hlater), hd⟩
  · split at ha
    · exact ⟨later, hlater, ‹_›⟩
    · cases ha

/-- A line that gives names of binary files is a notice. -/
theorem isBinaryNotice_of_binaryNames? {line : Line} {names : List Char × Option (List Char)}
    (h : binaryNames? line = some names) : line.isBinaryNotice = true := by
  obtain ⟨rest, hrest, hs⟩ := Option.bind_eq_some_iff.1 h
  obtain ⟨c, later, hlater, ha⟩ := exists_of_shortestName? hs
  obtain ⟨back, hback, hd⟩ := exists_differs_of_afterName? ha
  have hlong : ∃ d text, rest = d :: text ∧ later <:+ text := by
    obtain ⟨front, rfl⟩ := hlater
    cases front with
    | nil => exact ⟨c, later, rfl, List.suffix_rfl⟩
    | cons d front =>
      exact ⟨d, front ++ c :: later, rfl, (List.suffix_cons c later).trans (List.suffix_append _ _)⟩
  obtain ⟨d, text, rfl, ht⟩ := hlong
  rw [Line.isBinaryNotice, hrest]
  exact Line.differsLater_cons_iff.2 ⟨back, hback.trans ht, hd⟩

/-- A heading that begins a patch has the mark that goes with it. -/
theorem mark_of_begins {line : Line} {patch : Patch} (h : (ofLine line).Begins patch) :
    Mark.ofLine line = .command ∨ Mark.ofLine line = .target ∨
      (∃ old new, ofLine line = .binary old new) ∧ Mark.ofLine line = .binary := by
  have hs := spelled_ofLine line
  generalize ofLine line = heading at h hs ⊢
  cases hs with
  | command => exact .inl rfl
  | target => exact .inr (.inl rfl)
  | binary hn =>
    have hm := Line.mark_of_isBinaryNotice (isBinaryNotice_of_binaryNames? hn)
    exact .inr (.inr ⟨⟨_, _, rfl⟩, hm⟩)
  | _ => cases h

/-- A line without such a mark begins no patch. -/
theorem not_begins {line : Line}
    (h : Mark.ofLine line ∉ [Mark.command, Mark.target, Mark.binary]) (patch : Patch) :
    ¬ (ofLine line).Begins patch := by
  intro hb
  rcases mark_of_begins hb with hm | hm | ⟨-, hm⟩ <;> simp [hm] at h

end Heading

namespace PatchReader

/-- Between patches, a heading that begins none is read only if it leaves the reader there. -/
theorem HeadingStep.of_not_begins {r q : PatchReader} {heading : Heading}
    (h : r.HeadingStep heading q) (hb : ∀ patch, ¬ heading.Begins patch) (hc : r.current = none)
    (hn : r.hunk = none) : q.current = none ∧ q.hunk = none ∧ q.patches = r.patches := by
  have hother : r.readOther.current = none ∧ r.readOther.hunk = none ∧
      r.readOther.patches = r.patches := by
    refine ⟨?_, (hunk_readOther r).trans hn, patches_readOther r⟩
    cases hr : r.readOther.current with
    | none => rfl
    | some patch => simp [current_readOther_eq_some_iff.1 hr] at hc
  cases h with
  | sourceKept => exact ⟨hc, hn, rfl⟩
  | sourceLeaves => exact ⟨rfl, hn, patches_leave r⟩
  | emptyKept => exact ⟨hc, hn, rfl⟩
  | emptyLeaves => exact hother
  | other => exact hother
  | command old new => exact absurd (.command old new) (hb _)
  | @targetBegins source path => exact absurd (.target source path) (hb _)
  | binaryBegins old new => exact absurd (.binary old new) (hb _)
  | _ => simp_all

/-- A notice that comes first begins a patch and finishes it, so it is the only one. -/
theorem eq_of_binary {q : PatchReader} {old : List Char} {new : Option (List Char)}
    (h : ({} : PatchReader).HeadingStep (.binary old new) q) {lines : List Line} {patch : Patch}
    (hq : q.Completes lines [patch]) : patch = ⟨old, new.getD old, true, []⟩ := by
  cases h with
  | binaryMarks _ _ hs => cases hs
  | binaryBegins =>
    obtain ⟨later, hp⟩ := hq.finished_prefix
    cases hp
    rfl

end PatchReader

namespace ScanState

/-- What continues a block outside hunk bodies, where no target line can come and no command line
began the block, is a hunk header or begins no patch. -/
theorem Outside.not_begins {s t : ScanState} {line : Line} {next : Option Line}
    (h : Outside s line next .continues t) (hg : s.gitHeader = false)
    (he : s.expectTarget = false) :
    (∃ header, HunkHeader.ofLine? line = some header) ∨
      t = s ∧ ∀ patch, ¬ (Heading.ofLine line).Begins patch := by
  cases h with
  | hunk _ hh => exact .inl ⟨_, hh⟩
  | noteKept hm => exact .inr ⟨rfl, Heading.not_begins (by simp [hm])⟩
  | sourceKept _ _ _ hg' => simp [hg] at hg'
  | target _ he' => simp [he] at he'
  | otherKept hm =>
    have hm : Mark.ofLine line = .other := hm.resolve_right fun hm => by simp [hg] at hm
    exact .inr ⟨rfl, Heading.not_begins (by simp [hm])⟩

/-- Behind a notice that opens a block neither a target line nor a body line can come. -/
theorem Outside.of_notice {s t : ScanState} {line : Line} {next : Option Line}
    (h : Outside s line next .opens t) (hc : s.Coherent (some line)) (hx : s.Exhausted)
    (hm : Mark.ofLine line = .binary) :
    t.gitHeader = false ∧ t.expectTarget = false ∧ t.inBody = false := by
  have hbody : t.inBody = false := by
    by_contra hb
    have hh := h.mark_of_inBody hx (by simpa using hb)
    simp [hm] at hh
  have he : s.expectTarget = false := expectTarget_of_mark hc (by simp [hm])
  cases h with
  | binaryOpens _ hg => exact ⟨hg, he, hbody⟩
  | command hm' => simp [hm] at hm'
  | sourceOpens hm' => simp [hm] at hm'

end ScanState

namespace Scan

open ScanState

/-- No patch begins in the lines that continue a block, where no target line can come and no command
line began the block. -/
theorem Run.patches_of_not_begins {s t : ScanState} {placed : List (Placement × Line)}
    {next : Option Line} (h : Run s placed next t) (hg : s.gitHeader = false)
    (he : s.expectTarget = false) (hb : s.inBody = false) {r : PatchReader}
    (hc : r.current = none) (hn : r.hunk = none) {patches : List Patch}
    (hr : r.Completes (Block.gather placed).1 patches) : patches = r.patches := by
  have hnil {r : PatchReader} (hn : r.hunk = none) (hr : r.Completes [] patches) :
      patches = r.patches := by
    rcases PatchReader.finish_eq_ok_iff.1 (PatchReader.completes_nil.1 hr) with ⟨-, hp⟩ | ⟨_, hs, -⟩
    · exact hp
    · simp [hn] at hs
  induction h generalizing r with
  | done => exact hnil hn hr
  | @step s u _ p line later _ hplace hrest ih =>
    rcases place_eq_ok_iff.1 hplace with ⟨hb', -⟩ | ⟨-, ho⟩
    · simp [hb] at hb'
    rw [leaveBody_of_not_inBody hb] at ho
    cases p with
    | body => cases ho
    | opens => exact hnil hn hr
    | closes =>
      rw [Block.gather_cons, Block.attach, hrest.gather_fst_eq_nil ho.inside_of_closes] at hr
      exact hnil hn hr
    | skipped =>
      obtain rfl := ho.eq_of_skipped
      exact ih hg he hb hc hn hr
    | continues =>
      obtain ⟨q, hq, hlater⟩ := PatchReader.completes_cons.1 hr
      rcases ho.not_begins hg he with ⟨header, hl⟩ | ⟨rfl, hbegins⟩
      · -- a hunk needs a patch
        have hs := (PatchReader.readLine_of_header hl hq).2.1
        simp [hc] at hs
      · have hstep := (PatchReader.headingStep_of_readLine hn hq).of_not_begins hbegins hc hn
        obtain ⟨hcq, hnq, hpatches⟩ := hstep
        exact (ih hg he hb hcq hnq hlater).trans hpatches

/-- A block that a notice opens and that is one patch has this patch from the notice. -/
theorem Run.eq_of_notice {s t : ScanState} {placed : List (Placement × Line)}
    {next : Option Line} (h : Run s placed next t) (hc : s.Coherent (upcoming placed next))
    {line : Line} {rest : Block} (hb : line :: rest ∈ Block.ofPlaced placed)
    (hl : line.isBinaryNotice = true) {patch : Patch}
    (hr : Patch.ofBlock (line :: rest) = .ok [patch]) :
    ∃ old new, Heading.ofLine line = .binary old new ∧ patch = ⟨old, new.getD old, true, []⟩ := by
  induction h with
  | done => simp [Block.ofPlaced] at hb
  | @step s u _ p first later _ hplace hrest ih =>
    have hcu := hc.place hplace
    cases p with
    | opens =>
      rw [Block.ofPlaced_opens] at hb
      rcases List.mem_cons.1 hb with he | hb
      · obtain ⟨rfl, rfl⟩ := List.cons.inj he
        have hm := Line.mark_of_isBinaryNotice hl
        obtain ⟨q, hq, hlater⟩ := PatchReader.completes_cons.1 (Patch.ofBlock_eq_ok_iff.1 hr)
        have hstep := PatchReader.headingStep_of_readLine rfl hq
        by_cases hbegins : ∃ patch, (Heading.ofLine line).Begins patch
        · obtain ⟨_, hbegins⟩ := hbegins
          obtain ⟨old, new, hbinary⟩ : ∃ old new, Heading.ofLine line = .binary old new := by
            simpa [hm] using Heading.mark_of_begins hbegins
          exact ⟨old, new, hbinary, PatchReader.eq_of_binary (hbinary ▸ hstep) hlater⟩
        · obtain ⟨hcq, hnq, hpatches⟩ := hstep.of_not_begins (not_exists.1 hbegins) rfl rfl
          rcases place_eq_ok_iff.1 hplace with ⟨-, -, hp, -⟩ | ⟨-, ho⟩
          · cases hp
          obtain ⟨hg, he, hbody⟩ := ho.of_notice (coherent_leaveBody hc) (exhausted_leaveBody hc) hm
          have hno := hrest.patches_of_not_begins hg he hbody hcq hnq hlater
          rw [hpatches] at hno
          cases hno
      · exact ih hcu hb
    | _ => exact ih hcu hb

end Scan

/-- What the file is of which a notice stands alone. A name that is given alone names the file in
both revisions. The file has the new name, unless that stands for a missing file, and it is renamed
only if the two names differ. -/
structure FileChange.IsNoticed (file : FileChange) (old : List Char) (new : Option (List Char)) :
    Prop where
  binary : file.binary = true
  changes : file.changes = []
  keeps : Patch.stripRoot 'b' (new.getD old) ≠ Patch.noFile →
    file.filename = String.ofList (Patch.stripRoot 'b' (new.getD old)) ∧ file.status ≠ .deleted
  sameName : Patch.stripRoot 'a' old = Patch.stripRoot 'b' (new.getD old) →
    file.oldFilename = none ∧ file.status ≠ .renamed

namespace Patch

theorem isNoticed_of_fileChange? {old : List Char} {new : Option (List Char)} {file : FileChange}
    (h : fileChange? ⟨old, new.getD old, true, []⟩ = some file) : file.IsNoticed old new := by
  cases h
  refine ⟨rfl, rfl, fun hn => ?_, fun hs => ?_⟩
  · have hstatus : status (stripRoot 'a' old) (stripRoot 'b' (new.getD old)) ≠ .deleted :=
      fun hd => hn (status_eq_deleted_iff.1 hd).2
    exact ⟨if_neg hstatus, hstatus⟩
  · dsimp only
    have hrenamed : status (stripRoot 'a' old) (stripRoot 'b' (new.getD old)) ≠ .renamed :=
      fun hr => (status_eq_renamed_iff.1 hr).2.2 hs
    have hdeleted : status (stripRoot 'a' old) (stripRoot 'b' (new.getD old)) ≠ .deleted := by
      intro hd
      obtain ⟨ho, hn⟩ := status_eq_deleted_iff.1 hd
      exact ho (hs.trans hn)
    exact ⟨if_neg (not_or.2 ⟨hdeleted, hrenamed⟩), hrenamed⟩

end Patch
end DiffReview
