import DiffReview.Proofs.Patch.LineEnds

/-!
# Diffs with carriage returns

A diff whose lines end in carriage returns has the blocks of the diff without them. Each block that
is read with and without them has the same changes. Every block is read as the same file where each
heading is the same as without them, and so it is where no heading of the diff is exposed.
-/
namespace DiffReview

/-- The headings of a diff: the lines that are placed in a block outside hunk bodies. -/
def Scan.headings (scan : Scan) : List Line :=
  (scan.placed.filter fun p => p.1 = .opens || p.1 = .continues).map Prod.snd

namespace Placement

/-- The two lines are placed alike and end alike, and outside hunk bodies they are the same
heading. -/
structure ReadsAlike (p q : Placement × Line) : Prop where
  endsAlike : EndsAlike p q
  heading : p.1 = .opens ∨ p.1 = .continues → Heading.ofLine q.2 = Heading.ofLine p.2

theorem endsAlike_of_readsAlike {placed other : List (Placement × Line)}
    (h : List.Forall₂ ReadsAlike placed other) : List.Forall₂ EndsAlike placed other :=
  h.imp fun _ _ h => h.endsAlike

end Placement

namespace ScanState

/-- A heading is not empty. -/
theorem Outside.ne_nil {s t : ScanState} {line : Line} {next : Option Line} {p : Placement}
    (h : Outside s line next p t) (hp : p = .opens ∨ p = .continues) : line ≠ [] := by
  rintro rfl
  have hm : Mark.ofLine [] = .other := rfl
  cases h <;> simp_all [Line.isBlank]

end ScanState

namespace Block

/-- Blocks that end alike and are read have the same changes. -/
theorem changes_eq_of_endsAlike {block other : Block} (h : EndsAlike block other)
    {file file' : FileChange} (hf : fileChange block = .ok file)
    (hf' : fileChange other = .ok file') : file'.changes = file.changes := by
  obtain ⟨patch, hp, hc⟩ := fileChange_eq_ok_iff.1 hf
  obtain ⟨patch', hp', hc'⟩ := fileChange_eq_ok_iff.1 hf'
  obtain ⟨changes, hn, rfl⟩ := Option.map_eq_some_iff.1 hc
  obtain ⟨changes', hn', rfl⟩ := Option.map_eq_some_iff.1 hc'
  rw [Patch.numbered_eq_of_endsAlike h hp hp', hn] at hn'
  exact (Option.some.inj hn').symm

/-- Blocks that end alike and are read as patches of one shape are the same file. -/
theorem fileChange_of_shape {block other : Block} (h : EndsAlike block other) {patch patch' : Patch}
    {file : FileChange} (hp : Patch.ofBlock block = .ok [patch])
    (hp' : Patch.ofBlock other = .ok [patch']) (hs : patch'.shape = patch.shape)
    (hf : patch.fileChange? = some file) : fileChange other = .ok file := by
  obtain ⟨hsource, htarget, hbinary⟩ := Patch.eq_of_shape hs
  refine fileChange_eq_ok_iff.2 ⟨patch', hp', ?_⟩
  rw [← hf, Patch.fileChange?, Patch.fileChange?, Patch.numbered_eq_of_endsAlike h hp hp', hsource,
    htarget, hbinary]

end Block

namespace Scan

open ScanState

/-- What is placed in a block outside hunk bodies is a heading of the diff. -/
theorem Run.mem_headings {t : ScanState} {placed : List (Placement × Line)}
    (h : Run {} placed none t) {p : Placement × Line} (hp : p ∈ placed)
    (hk : p.1 = .opens ∨ p.1 = .continues) : p.2 ∈ (ofLines (placed.map Prod.snd)).headings := by
  rw [ofLines, h.after_eq]
  exact List.mem_map_of_mem (List.mem_filter.2 ⟨hp, by simpa using hk⟩)

/-- Along a run that places the lines of a block, lines that are read alike complete patches of the
same shapes. -/
theorem Run.completes_of_readsAlike {s t : ScanState} {placed other : List (Placement × Line)}
    {next : Option Line} (h : Run s placed next t) (hc : s.Coherent (upcoming placed next))
    (ha : List.Forall₂ Placement.ReadsAlike placed other)
    {before : List Line} {r r' : PatchReader} (hf : ({} : PatchReader).Reads before r)
    (hs : s.InStep before) (hr : r'.shape = r.shape) {patches : List Patch}
    (hp : r.Completes (Block.gather placed).1 patches) :
    ∃ patches', r'.Completes (Block.gather other).1 patches' ∧
      patches'.map Patch.shape = patches.map Patch.shape := by
  induction h generalizing other before r r' with
  | done =>
    cases ha
    exact PatchReader.exists_completes_nil hr hp
  | @step s u _ p line later _ hplace hrest ih =>
    cases ha with
    | @cons _ q _ rest hq ha =>
      obtain ⟨q, line'⟩ := q
      obtain ⟨⟨rfl, hl⟩, hheading⟩ := hq
      have hcu := hc.place hplace
      rcases place_eq_ok_iff.1 hplace with ⟨hb, -, rfl, rfl⟩ | ⟨-, ho⟩
      · obtain ⟨m, hm, hcm⟩ := PatchReader.completes_cons.1 hp
        obtain ⟨hunk, hh, -⟩ := hs hb r hf
        obtain ⟨m', hm', hshape⟩ := PatchReader.exists_readLine_of_endsAlike hr hl
          (fun hn => by simp [hn] at hh) hm
        have hfm := PatchReader.reads_append.2 ⟨r, hf, PatchReader.reads_singleton.2 hm⟩
        obtain ⟨patches', hcm', hpatches⟩ := ih hcu ha hfm (hs.body hb) hshape hcm
        exact ⟨patches', PatchReader.completes_cons.2 ⟨m', hm', hcm'⟩, hpatches⟩
      · have hxl' := exhausted_leaveBody hc
        cases q with
        | body => cases ho
        | opens => exact PatchReader.exists_completes_nil hr hp
        | closes =>
          have hi := ho.inside_of_closes
          have halike := Placement.endsAlike_of_readsAlike ha
          have hnil := hrest.gather_fst_eq_nil hi
          have hnil' := (hrest.endsAlike halike).gather_fst_eq_nil hi
          rw [Block.gather_cons, Block.attach, hnil] at hp
          rw [Block.gather_cons, Block.attach, hnil']
          exact PatchReader.exists_completes_nil hr hp
        | skipped =>
          obtain rfl := ho.eq_of_skipped
          have hsu : s.leaveBody.InStep before := by
            intro hb
            simp [not_inBody_of_exhausted hxl'] at hb
          exact ih hcu ha hf hsu hr hp
        | continues =>
          obtain ⟨m, hm, hcm⟩ := PatchReader.completes_cons.1 hp
          obtain ⟨m', hm', hshape⟩ := PatchReader.exists_readLine_of_endsAlike hr hl
            (fun _ => hheading (.inr rfl)) hm
          have hfm := PatchReader.reads_append.2 ⟨r, hf, PatchReader.reads_singleton.2 hm⟩
          obtain ⟨patches', hcm', hpatches⟩ := ih hcu ha hfm (InStep.outside hxl' ho rfl) hshape hcm
          exact ⟨patches', PatchReader.completes_cons.2 ⟨m', hm', hcm'⟩, hpatches⟩

/-- The blocks of runs over lines that are read alike are the same files. -/
theorem Run.fileChange_of_readsAlike {s t : ScanState} {placed other : List (Placement × Line)}
    {next : Option Line} (h : Run s placed next t) (hc : s.Coherent (upcoming placed next))
    (ha : List.Forall₂ Placement.ReadsAlike placed other) {files : List FileChange}
    (hf : List.Forall₂ (fun block file => Block.fileChange block = .ok file)
      (Block.ofPlaced placed) files) :
    List.Forall₂ (fun block file => Block.fileChange block = .ok file) (Block.ofPlaced other)
      files := by
  induction h generalizing other files with
  | done =>
    cases ha
    exact hf
  | @step s u _ p line later _ hplace hrest ih =>
    cases ha with
    | @cons _ q _ rest hq ha =>
      obtain ⟨q, line'⟩ := q
      obtain ⟨⟨rfl, hl⟩, hheading⟩ := hq
      have hcu := hc.place hplace
      rcases place_eq_ok_iff.1 hplace with ⟨-, -, rfl, rfl⟩ | ⟨-, ho⟩
      · exact ih hcu ha hf
      · cases q with
        | opens =>
          cases hf with
          | @cons _ file _ later hfile hfiles =>
            refine .cons ?_ (ih hcu ha hfiles)
            obtain ⟨patch, hp, hdescribes⟩ := Block.fileChange_eq_ok_iff.1 hfile
            obtain ⟨m, hm, hcm⟩ := PatchReader.completes_cons.1 (Patch.ofBlock_eq_ok_iff.1 hp)
            obtain ⟨m', hm', hshape⟩ := PatchReader.exists_readLine_of_endsAlike rfl hl
              (fun _ => hheading (.inl rfl)) hm
            have hsu : u.InStep [line] := fun hbody =>
              absurd (ho.mark_of_inBody (exhausted_leaveBody hc) hbody) ho.of_opens.1
            obtain ⟨patches', hcm', hpatches⟩ := hrest.completes_of_readsAlike hcu ha
              (PatchReader.reads_singleton.2 hm) hsu hshape hcm
            obtain ⟨patch', rfl, hs⟩ : ∃ patch', patches' = [patch'] ∧
                patch'.shape = patch.shape := by
              simpa using List.map_eq_singleton_iff.1 hpatches
            have hp' := Patch.ofBlock_eq_ok_iff.2 (PatchReader.completes_cons.2 ⟨m', hm', hcm'⟩)
            have halike := (Block.endsAlike_gather (Placement.endsAlike_of_readsAlike ha)).1
            exact Block.fileChange_of_shape (.cons hl halike) hp hp' hs hdescribes
        | _ => exact ih hcu ha hf

/-- Lines that end alike are read alike, if no heading is exposed. -/
theorem Run.readsAlike {s t : ScanState} {placed other : List (Placement × Line)}
    {next : Option Line} (h : Run s placed next t)
    (ha : List.Forall₂ Placement.EndsAlike placed other)
    (hx : ∀ p ∈ placed, p.1 = .opens ∨ p.1 = .continues → p.2.isExposed = false) :
    List.Forall₂ Placement.ReadsAlike placed other := by
  induction h generalizing other with
  | done =>
    cases ha
    exact .nil
  | @step s _ _ p line _ _ hplace _ ih =>
    cases ha with
    | cons hq ha =>
      obtain ⟨hxl, hxs⟩ := List.forall_mem_cons.1 hx
      refine .cons ⟨hq, fun hp => ?_⟩ (ih ha hxs)
      have hne : line ≠ [] := by
        rcases place_eq_ok_iff.1 hplace with ⟨-, -, rfl, -⟩ | ⟨-, ho⟩
        · simp at hp
        · exact ho.ne_nil hp
      exact Heading.ofLine_of_endsAlike hq.2 hne (hxl hp)

end Scan

namespace Block

/-- A run over the lines of a text goes over those of the text with carriage returns, which are
split in the same places. -/
theorem exists_split_crlf {text : List Char} (ht : '\r' ∉ text) {placed : List (Placement × Line)}
    {t : ScanState} (hr : Scan.Run {} placed none t)
    (hlines : placed.map Prod.snd = Text.lines text) :
    ∃ other, List.Forall₂ Placement.EndsAlike placed other ∧
      split (String.ofList (Text.crlf text)) = .ok (ofPlaced other) := by
  have hends := Text.endsAlike_lines_crlf ht
  rw [← hlines] at hends
  obtain ⟨other, hother, ha⟩ := Scan.exists_endsAlike hends
  refine ⟨other, ha, ofLines_eq_ok_iff.2 ⟨other, t, hr.endsAlike ha, ?_, rfl⟩⟩
  rw [hother, String.toList_ofList]

/-- The text with carriage returns splits into the blocks of the text, which end alike. -/
theorem split_crlf {text : List Char} (ht : '\r' ∉ text) {blocks : List Block}
    (h : split (String.ofList text) = .ok blocks) :
    ∃ others, split (String.ofList (Text.crlf text)) = .ok others ∧
      List.Forall₂ EndsAlike blocks others := by
  obtain ⟨placed, t, hr, hlines, rfl⟩ := ofLines_eq_ok_iff.1 h
  rw [String.toList_ofList] at hlines
  obtain ⟨other, ha, hsplit⟩ := exists_split_crlf ht hr hlines
  exact ⟨_, hsplit, (endsAlike_gather ha).2⟩

end Block

namespace ParsedDiff

/-- What the text with carriage returns is read as, if it is read at all, has the changes of the
text. -/
theorem changes_of_parse_crlf {text : List Char} (ht : '\r' ∉ text) {diff other : ParsedDiff}
    (h : parse (String.ofList text) = .ok diff)
    (h' : parse (String.ofList (Text.crlf text)) = .ok other) :
    List.Forall₂ (fun file file' => file'.changes = file.changes) diff.files other.files := by
  obtain ⟨blocks, hs, hf⟩ := parse_eq_ok_iff.1 h
  obtain ⟨others, hs', hf'⟩ := parse_eq_ok_iff.1 h'
  obtain ⟨others₂, hs₂, ha⟩ := Block.split_crlf ht hs
  obtain rfl : others₂ = others := Except.ok.inj (hs₂.symm.trans hs')
  refine (forall₂_trans (forall₂_trans hf.flip ha) hf').imp ?_
  rintro file file' ⟨other, ⟨block, hb, hends⟩, hb'⟩
  exact Block.changes_eq_of_endsAlike hends hb hb'

/-- A text whose lines are read alike is the same diff. -/
theorem parse_of_readsAlike {text text' : String} {diff : ParsedDiff} (h : parse text = .ok diff)
    (ha : ∀ placed t, Scan.Run {} placed none t → placed.map Prod.snd = Text.lines text.toList →
      ∃ other, other.map Prod.snd = Text.lines text'.toList ∧
        List.Forall₂ Placement.ReadsAlike placed other) : parse text' = .ok diff := by
  obtain ⟨blocks, hs, hf⟩ := parse_eq_ok_iff.1 h
  obtain ⟨placed, t, hr, hlines, rfl⟩ := Block.ofLines_eq_ok_iff.1 hs
  obtain ⟨other, hother, halike⟩ := ha placed t hr hlines
  have hrun := hr.endsAlike (Placement.endsAlike_of_readsAlike halike)
  exact parse_eq_ok_iff.2 ⟨_, Block.ofLines_eq_ok_iff.2 ⟨other, t, hrun, hother, rfl⟩,
    hr.fileChange_of_readsAlike (ScanState.coherent_initial _) halike hf⟩

/-- If no heading is exposed, the text with carriage returns is the same diff. -/
theorem parse_crlf_of_not_isExposed {text : List Char} (ht : '\r' ∉ text) {diff : ParsedDiff}
    (h : parse (String.ofList text) = .ok diff)
    (hx : ∀ line ∈ (Scan.ofLines (Text.lines text)).headings, line.isExposed = false) :
    parse (String.ofList (Text.crlf text)) = .ok diff := by
  refine parse_of_readsAlike h fun placed t hr hlines => ?_
  rw [String.toList_ofList] at hlines ⊢
  have hends := Text.endsAlike_lines_crlf ht
  rw [← hlines] at hends hx
  obtain ⟨other, hother, ha⟩ := Scan.exists_endsAlike hends
  exact ⟨other, hother, hr.readsAlike ha fun p hp hk => hx p.2 (hr.mem_headings hp hk)⟩

end ParsedDiff
end DiffReview
