import DiffReview.Proofs.Patch.Bodies
import DiffReview.Proofs.Patch.Sync

/-!
# Headings of a block

The reader of a block takes each line as a body line or as a heading, depending on whether a hunk is
open. What it takes as a heading the scanner has placed as one, so a property of the headings of a
diff is one of the headings of its blocks. What headings and body lines keep holds of the patches in
the end; in particular a patch that is finished stays among them. To the patches a heading does one
of three things: it leaves them, begins another one, or changes the current one.
-/
namespace DiffReview

namespace Heading

/-- The patch that a heading begins. That of a target line has its source from an earlier line. -/
inductive Begins : Heading → Patch → Prop
  | command (old new : List Char) : Begins (.command old new) ⟨old, new, false, []⟩
  | target (source path : List Char) : Begins (.target path) ⟨source, path, false, []⟩
  | binary (old : List Char) (new : Option (List Char)) :
      Begins (.binary old new) ⟨old, new.getD old, true, []⟩

/-- What a heading changes in the current patch. -/
inductive Changes : Heading → (Patch → Patch) → Prop
  | newFile : Changes .newFile fun patch => { patch with source := Patch.noFile }
  | deletedFile : Changes .deletedFile fun patch => { patch with target := Patch.noFile }
  | binary (old : List Char) (new : Option (List Char)) :
      Changes (.binary old new) fun patch => { patch with binary := true }
  | binaryPatch : Changes .binaryPatch fun patch => { patch with binary := true }

/-- A heading that marks a file as binary. -/
def isBinary : Heading → Bool
  | .binary _ _ => true
  | .binaryPatch => true
  | _ => false

end Heading

namespace PatchReader

/-- A heading leaves the patches as they are, begins one, or changes the current one. A mark for
binary files is never passed over. -/
theorem HeadingStep.patches_cases {r q : PatchReader} {heading : Heading}
    (h : r.HeadingStep heading q) :
    q.patches = r.patches ∧ heading.isBinary = false ∨
    (∃ patch, heading.Begins patch ∧ q.patches = r.patches ++ [patch]) ∨
    ∃ f, heading.Changes f ∧ r.current.isSome = true ∧ q.patches = (r.update f).patches := by
  cases h with
  | command old new => exact .inr (.inl ⟨_, .command old new, patches_begin r _⟩)
  | newFile hc => exact .inr (.inr ⟨_, .newFile, hc, rfl⟩)
  | deletedFile hc => exact .inr (.inr ⟨_, .deletedFile, hc, rfl⟩)
  | sourceLeaves => exact .inl ⟨patches_leave r, rfl⟩
  | targetBegins path => exact .inr (.inl ⟨_, .target _ path, patches_begin r _⟩)
  | emptyLeaves => exact .inl ⟨patches_readOther r, rfl⟩
  | binaryMarks old new hc =>
    exact .inr (.inr ⟨_, .binary old new, by rw [hc]; rfl, patches_leave _⟩)
  | binaryBegins old new =>
    exact .inr (.inl ⟨_, .binary old new, (patches_leave _).trans (patches_begin r _)⟩)
  | binaryPatch hc => exact .inr (.inr ⟨_, .binaryPatch, by rw [hc]; rfl, patches_leave _⟩)
  | other => exact .inl ⟨patches_readOther r, rfl⟩
  | _ => exact .inl ⟨rfl, rfl⟩

/-- The lines that the reader takes as headings, up to the line at which it stops. -/
def headings (r : PatchReader) : List Line → List Line
  | [] => []
  | line :: rest =>
    match r.readLine line with
    | .error _ => []
    | .ok q => if r.hunk.isNone then line :: q.headings rest else q.headings rest

theorem headings_of_hunk {r q : PatchReader} {line : Line} (hr : r.hunk.isSome = true)
    (h : r.readLine line = .ok q) (rest : List Line) :
    r.headings (line :: rest) = q.headings rest := by
  obtain ⟨hunk, hh⟩ := Option.isSome_iff_exists.1 hr
  simp [headings, h, hh]

theorem headings_of_heading {r q : PatchReader} {line : Line} (hr : r.hunk = none)
    (h : r.readLine line = .ok q) (rest : List Line) :
    r.headings (line :: rest) = line :: q.headings rest := by
  simp [headings, h, hr]

/-- A heading is the first line, when no hunk is open, or a later one. -/
theorem mem_headings_cons {r : PatchReader} {line l : Line} {rest : List Line} :
    l ∈ r.headings (line :: rest) ↔ ∃ q, r.readLine line = .ok q ∧
      (r.hunk = none ∧ l = line ∨ l ∈ q.headings rest) := by
  rw [headings]
  cases r.readLine line with
  | error e => simp
  | ok q => cases hh : r.hunk <;> simp

theorem headings_subset {r : PatchReader} {lines : List Line} : r.headings lines ⊆ lines := by
  induction lines generalizing r with
  | nil => exact List.Subset.refl []
  | cons line rest ih =>
    intro l hl
    obtain ⟨q, -, ⟨-, rfl⟩ | hl⟩ := mem_headings_cons.1 hl
    · exact List.mem_cons_self
    · exact List.mem_cons_of_mem _ (ih hl)

/-- What body lines and headings keep, given the headings read before, holds of a reader that has
the patches of the block. -/
theorem Completes.preserves {P : List Line → PatchReader → Prop}
    (hbody : ∀ {before : List Line} {r : PatchReader} {hunk : OpenHunk} (later : OpenHunk),
      P before r → r.hunk = some hunk → P before (r.resume later))
    (hheading : ∀ {before : List Line} {r q : PatchReader} {line : Line}, P before r →
      r.hunk = none → r.HeadingStep (Heading.ofLine line) q → P (before ++ [line]) q)
    {lines : List Line} {r : PatchReader} {patches : List Patch} (h : r.Completes lines patches)
    (before : List Line) (h₀ : P before r) :
    ∃ q, P (before ++ r.headings lines) q ∧ q.patches = patches := by
  induction lines generalizing before r with
  | nil =>
    rw [headings, List.append_nil]
    rcases finish_eq_ok_iff.1 (completes_nil.1 h) with ⟨-, rfl⟩ | ⟨hunk, hs, -, rfl⟩
    · exact ⟨r, h₀, rfl⟩
    · exact ⟨_, hbody hunk h₀ hs, rfl⟩
  | cons line rest ih =>
    obtain ⟨q, hq, hrest⟩ := completes_cons.1 h
    cases hh : r.hunk with
    | some hunk =>
      rw [headings_of_hunk (by simp [hh]) hq]
      obtain ⟨-, later, -, -, rfl⟩ := readLine_of_hunk hh hq
      exact ih hrest before (hbody later h₀ hh)
    | none =>
      have hstep := hheading h₀ hh (headingStep_of_readLine hh hq)
      rw [headings_of_heading hh hq]
      simpa using ih hrest _ hstep

theorem finished_resume (r : PatchReader) (hunk : OpenHunk) :
    (r.resume hunk).finished = r.finished := by
  unfold resume
  split <;> rfl

/-- A heading may finish the current patch and leaves the patches that are finished. -/
theorem HeadingStep.finished_prefix {r q : PatchReader} {heading : Heading}
    (h : r.HeadingStep heading q) : r.finished <+: q.finished := by
  have hleave : r.finished <+: r.leave.finished := List.prefix_append _ _
  have hother : r.finished <+: r.readOther.finished := by
    unfold readOther
    split
    · exact List.prefix_rfl
    · exact hleave
  cases h with
  | command => exact hleave
  | sourceLeaves => exact hleave
  | targetBegins => exact hleave
  | emptyLeaves => exact hother
  | binaryMarks => exact List.prefix_append _ _
  | binaryBegins => exact (List.prefix_append r.finished _).trans (List.prefix_append _ _)
  | binaryPatch => exact List.prefix_append _ _
  | other => exact hother
  | _ => exact List.prefix_rfl

/-- A patch that is finished is one of those in the end. -/
theorem Completes.finished_prefix {lines : List Line} {r : PatchReader} {patches : List Patch}
    (h : r.Completes lines patches) : r.finished <+: patches := by
  obtain ⟨q, hq, rfl⟩ := preserves (P := fun _ q => r.finished <+: q.finished)
    (fun later hs _ => (finished_resume _ later).symm ▸ hs)
    (fun hs _ hstep => hs.trans hstep.finished_prefix) h [] List.prefix_rfl
  exact hq.trans (List.prefix_append _ _)

end PatchReader

namespace Scan

open ScanState

/-- Of the lines that continue a block, those that its reader takes as headings are placed as
such. -/
theorem Run.mem_of_headings_gather {s t : ScanState} {placed : List (Placement × Line)}
    {next : Option Line} (h : Run s placed next t) (hc : s.Coherent (upcoming placed next))
    {before : List Line} {r : PatchReader} (hf : ({} : PatchReader).Reads before r)
    (hs : s.InStep before) {line : Line} (hl : line ∈ r.headings (Block.gather placed).1) :
    (.continues, line) ∈ placed := by
  induction h generalizing before r with
  | done => simp [PatchReader.headings] at hl
  | @step s u _ p first later _ hplace hrest ih =>
    have hcu := hc.place hplace
    have hx := exhausted_leaveBody hc
    refine List.mem_cons.2 ?_
    rcases place_eq_ok_iff.1 hplace with ⟨hb, -, rfl, rfl⟩ | ⟨-, ho⟩
    · obtain ⟨q, hq, ⟨hn, -⟩ | hl⟩ := PatchReader.mem_headings_cons.1 hl
      · obtain ⟨hunk, hh, -⟩ := hs hb r hf
        simp [hn] at hh
      · have hfq := PatchReader.reads_append.2 ⟨r, hf, PatchReader.reads_singleton.2 hq⟩
        exact .inr (ih hcu hfq (hs.body hb) hl)
    · cases p with
      | body => cases ho
      | opens => simp [Block.attach, PatchReader.headings] at hl
      | closes =>
        rw [Block.gather_cons, Block.attach, hrest.gather_fst_eq_nil ho.inside_of_closes] at hl
        simp [PatchReader.headings] at hl
      | skipped =>
        obtain rfl := ho.eq_of_skipped
        have hsu : s.leaveBody.InStep before := by
          intro hb
          simp [not_inBody_of_exhausted hx] at hb
        exact .inr (ih hcu hf hsu hl)
      | continues =>
        obtain ⟨q, hq, ⟨-, rfl⟩ | hl⟩ := PatchReader.mem_headings_cons.1 hl
        · exact .inl rfl
        · have hfq := PatchReader.reads_append.2 ⟨r, hf, PatchReader.reads_singleton.2 hq⟩
          exact .inr (ih hcu hfq (InStep.outside hx ho rfl) hl)

/-- The lines of a block that its reader takes as headings are placed as such. -/
theorem Run.mem_of_headings {s t : ScanState} {placed : List (Placement × Line)}
    {next : Option Line} (h : Run s placed next t) (hc : s.Coherent (upcoming placed next))
    {block : Block} (hb : block ∈ Block.ofPlaced placed) {line : Line}
    (hl : line ∈ ({} : PatchReader).headings block) :
    ∃ p, (p = .opens ∨ p = .continues) ∧ (p, line) ∈ placed := by
  induction h with
  | done => simp [Block.ofPlaced] at hb
  | @step s u _ p first later _ hplace hrest ih =>
    have hcu := hc.place hplace
    have hlater (hb : block ∈ Block.ofPlaced later) :
        ∃ q, (q = .opens ∨ q = .continues) ∧ (q, line) ∈ (p, first) :: later := by
      obtain ⟨q, hq, hm⟩ := ih hcu hb
      exact ⟨q, hq, List.mem_cons_of_mem _ hm⟩
    cases p with
    | opens =>
      rw [Block.ofPlaced_opens] at hb
      rcases List.mem_cons.1 hb with rfl | hb
      · obtain ⟨q, hq, ⟨-, rfl⟩ | hl⟩ := PatchReader.mem_headings_cons.1 hl
        · exact ⟨.opens, .inl rfl, List.mem_cons_self⟩
        · have hsu : u.InStep [first] := by
            rcases place_eq_ok_iff.1 hplace with ⟨-, -, hp, -⟩ | ⟨-, ho⟩
            · cases hp
            · exact fun hbody =>
                absurd (ho.mark_of_inBody (exhausted_leaveBody hc) hbody) ho.of_opens.1
          have hm := hrest.mem_of_headings_gather hcu (PatchReader.reads_singleton.2 hq) hsu hl
          exact ⟨.continues, .inr rfl, List.mem_cons_of_mem _ hm⟩
      · exact hlater hb
    | _ => exact hlater hb

end Scan
end DiffReview
