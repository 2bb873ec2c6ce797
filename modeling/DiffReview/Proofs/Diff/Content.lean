import DiffReview.Proofs.Diff.Numbering
import DiffReview.Proofs.Patch.Replace
import DiffReview.Proofs.Text.Whole

/-!
# Content of body lines

What stands behind the marker of a body line decides nothing. Another text in its place, whatever
it looks like, is scanned and read in the same way, and shows only in the content of one change.
-/
namespace DiffReview

/-- The change with another content. -/
def Change.withContent (change : Change) (content : List Char) : Change :=
  { change with content := String.ofList content }

/-- The file with another content of one change. -/
def FileChange.withContent (file : FileChange) (j : Nat) (content : List Char) : FileChange :=
  { file with changes := file.changes.modify j (·.withContent content) }

/-- The diff with another content of one change of one file. -/
def ParsedDiff.withContent (diff : ParsedDiff) (i j : Nat) (content : List Char) : ParsedDiff :=
  ⟨diff.files.modify i (·.withContent j content)⟩

namespace BodyLine

/-- The line of a kind with a text. -/
def ofKind : ChangeKind → List Char → BodyLine
  | .added => .added
  | .removed => .removed
  | .context => .context

/-- The kind and the content of the change that a body line is; a note is none. -/
def item? : BodyLine → Option (ChangeKind × List Char)
  | .added text => some (.added, Line.content text)
  | .removed text => some (.removed, Line.content text)
  | .context text => some (.context, Line.content text)
  | .note _ => none

@[simp] theorem item?_ofKind (kind : ChangeKind) (text : List Char) :
    (ofKind kind text).item? = some (kind, Line.content text) := by
  cases kind <;> rfl

theorem shape_ofKind (kind : ChangeKind) (text text' : List Char) :
    (ofKind kind text').shape = (ofKind kind text).shape := by
  cases kind <;> rfl

end BodyLine

namespace Numbered

/-- A numbered line without its content. -/
def shape (n : Numbered) : Numbered := { n with content := [] }

/-- The kind and the content of a numbered line. -/
def item (n : Numbered) : ChangeKind × List Char := (n.kind, n.content)

theorem eq_of_shape_of_item {n m : Numbered} (hs : n.shape = m.shape) (he : n.item = m.item) :
    n = m := by
  cases n
  cases m
  simp_all [shape, item]

theorem map_shape_ofBody (old new : Nat) (body : List BodyLine) :
    (ofBody old new body).map shape = ofBody old new (body.map BodyLine.shape) := by
  induction body generalizing old new with
  | nil => rfl
  | cons line body ih =>
    cases line <;> simp only [ofBody, List.map_cons, BodyLine.shape, ih] <;> rfl

theorem map_item_ofBody (old new : Nat) (body : List BodyLine) :
    (ofBody old new body).map item = body.filterMap BodyLine.item? := by
  induction body generalizing old new with
  | nil => rfl
  | cons line body ih =>
    cases line <;> simp only [ofBody, List.map_cons, List.filterMap_cons, BodyLine.item?, ih] <;>
      rfl

theorem eq_of_map_shape_of_map_item {ns ms : List Numbered} (hs : ns.map shape = ms.map shape)
    (he : ns.map item = ms.map item) : ns = ms := by
  induction ns generalizing ms with
  | nil => simpa [eq_comm] using hs
  | cons n ns ih =>
    cases ms with
    | nil => simp at hs
    | cons m ms =>
      obtain ⟨hs, hss⟩ := List.cons_eq_cons.1 hs
      obtain ⟨he, hes⟩ := List.cons_eq_cons.1 he
      rw [eq_of_shape_of_item hs he, ih hss hes]

/-- Numbered lines of one shape whose items differ in one content differ in that content. -/
theorem exists_of_items {ns : List Numbered} {front back : List (ChangeKind × List Char)}
    {kind : ChangeKind} {content : List Char} (h : ns.map item = front ++ (kind, content) :: back) :
    ∃ first n last, ns = first ++ n :: last ∧ first.length = front.length ∧ n.kind = kind ∧
      n.content = content ∧ ∀ (ns' : List Numbered) (content' : List Char),
        ns'.map shape = ns.map shape → ns'.map item = front ++ (kind, content') :: back →
        ns' = first ++ { n with content := content' } :: last := by
  obtain ⟨first, rest, rfl, hfront, hrest⟩ := List.map_eq_append_iff.1 h
  obtain ⟨n, last, rfl, hn, hback⟩ := List.map_eq_cons_iff.1 hrest
  obtain ⟨rfl, rfl⟩ : n.kind = kind ∧ n.content = content := by simpa [item] using hn
  refine ⟨first, n, last, rfl, by simpa using congrArg List.length hfront, rfl, rfl, ?_⟩
  intro ns' content' hs he
  refine eq_of_map_shape_of_map_item ?_ ?_
  · rw [hs, List.map_append, List.map_append]
    rfl
  · rw [he, List.map_append, List.map_cons, hfront, hback]
    rfl

theorem change?_content {n : Numbered} {change : Change} (h : n.change? = some change)
    (content : List Char) :
    { n with content := content }.change? = some (change.withContent content) := by
  unfold change? at h ⊢
  by_cases hn : 0 < n.number
  · simp only [hn, dif_pos, Option.some.injEq] at h ⊢
    rw [← h]
    rfl
  · simp [hn] at h

end Numbered

namespace Patch

theorem map_shape_numbered (patch : Patch) :
    patch.numbered.map Numbered.shape = patch.shape.numbered := by
  simp only [numbered, shape, List.map_flatMap, List.flatMap_map]
  exact List.flatMap_congr fun hunk _ => Numbered.map_shape_ofBody _ _ _

theorem map_item_numbered (patch : Patch) :
    patch.numbered.map Numbered.item = patch.bodyLines.filterMap BodyLine.item? := by
  simp only [numbered, bodyLines, List.map_flatMap, List.filterMap_flatMap]
  exact List.flatMap_congr fun hunk _ => Numbered.map_item_ofBody _ _ _

/-- A file change has a change for a body line of its patch. With another text of that line the
patch describes the file with another content of that change. -/
theorem exists_change_of_bodyLine {patch : Patch} {first last : List BodyLine} {kind : ChangeKind}
    {text : List Char} {file : FileChange}
    (hb : patch.bodyLines = first ++ BodyLine.ofKind kind text :: last)
    (h : patch.fileChange? = some file) :
    ∃ j change, file.changes[j]? = some change ∧ change.kind = kind ∧
      change.content = String.ofList (Line.content text) ∧
      ∀ (patch' : Patch) (text' : List Char), patch'.shape = patch.shape →
        patch'.bodyLines = first ++ BodyLine.ofKind kind text' :: last →
        patch'.fileChange? = some (file.withContent j (Line.content text')) := by
  have hitem := map_item_numbered patch
  rw [hb, List.filterMap_append, List.filterMap_cons_some (BodyLine.item?_ofKind kind text)]
    at hitem
  obtain ⟨front, n, back, hn, -, hk, hcontent, hother⟩ := Numbered.exists_of_items hitem
  obtain ⟨changes, hc, rfl⟩ := Option.map_eq_some_iff.1 h
  rw [hn] at hc
  obtain ⟨before, change, after, rfl, hbefore, hchange, hafter⟩ :=
    mapM_append_cons_eq_some_iff.1 hc
  obtain ⟨hck, hcc, -⟩ := Numbered.change?_eq_some_iff.1 hchange
  refine ⟨before.length, change, by simp, hck.trans hk, hcc.trans (by rw [hcontent]), ?_⟩
  intro patch' text' hs hb'
  have hshape : patch'.numbered.map Numbered.shape = patch.numbered.map Numbered.shape := by
    rw [map_shape_numbered, map_shape_numbered, hs]
  have hitem' := map_item_numbered patch'
  rw [hb', List.filterMap_append, List.filterMap_cons_some (BodyLine.item?_ofKind kind text')]
    at hitem'
  have hn' := hother _ _ hshape hitem'
  have hc' : patch'.numbered.mapM Numbered.change? =
      some (before ++ change.withContent (Line.content text') :: after) := by
    rw [hn']
    exact mapM_append_cons_eq_some_iff.2
      ⟨before, _, after, rfl, hbefore, Numbered.change?_content hchange _, hafter⟩
  obtain ⟨hsource, htarget, hbinary⟩ := Patch.eq_of_shape hs
  simp only [fileChange?, hc', hsource, htarget, hbinary, Option.map_some, FileChange.withContent,
    modify_length_append]

end Patch

namespace Line

/-- A marker gives a line its kind, whatever comes after it. -/
theorem exists_kind_of_marker {c : Char} (h : c ∈ markers) : ∃ kind, ∀ text,
    kind? (c :: text) = some kind ∧ BodyLine.ofLine? (c :: text) = some (.ofKind kind text) := by
  simp only [markers, List.mem_cons, List.not_mem_nil, or_false] at h
  rcases h with rfl | rfl | rfl
  · exact ⟨.added, fun _ => ⟨rfl, rfl⟩⟩
  · exact ⟨.removed, fun _ => ⟨rfl, rfl⟩⟩
  · exact ⟨.context, fun _ => ⟨rfl, rfl⟩⟩

theorem isBody_of_marker {c : Char} (h : c ∈ markers) (text : List Char) :
    isBody (c :: text) = true := by
  simp only [markers, List.mem_cons, List.not_mem_nil, or_false] at h
  rcases h with rfl | rfl | rfl <;> rfl

/-- A line with a marker is counted by the marker alone. -/
theorem consume_of_marker {c : Char} (h : c ∈ markers) (s : ScanState) (text text' : List Char) :
    s.consume (c :: text') = s.consume (c :: text) := by
  simp only [markers, List.mem_cons, List.not_mem_nil, or_false] at h
  rcases h with rfl | rfl | rfl <;> rfl

theorem content_of_not_mem {text : List Char} (h : '\r' ∉ text) : content text = text := by
  have hd : text.reverse.dropWhile (· = '\r') = text.reverse := by
    cases hr : text.reverse with
    | nil => rfl
    | cons d ds =>
      have hm : d ∈ text := List.mem_reverse.1 (hr ▸ List.mem_cons_self)
      have hd : d ≠ '\r' := fun he => h (he ▸ hm)
      exact List.dropWhile_cons_of_neg (by simpa using hd)
  rw [content, Text.trimEnd, hd, List.reverse_reverse]

end Line

namespace Block

/-- A block in which another text stands behind the marker of a body line describes the file with
another content of one change. -/
theorem exists_change_of_bodyLine {front back : List Line} {c : Char} {text : List Char}
    {file : FileChange} (hc : c ∈ Line.markers)
    (hr : ∀ r, ({} : PatchReader).Reads front r → r.hunk.isSome = true)
    (h : fileChange (front ++ (c :: text) :: back) = .ok file) :
    ∃ j change, file.changes[j]? = some change ∧ Line.kind? (c :: text) = some change.kind ∧
      change.content = String.ofList (Line.content text) ∧
      ∀ text', fileChange (front ++ (c :: text') :: back) =
        .ok (file.withContent j (Line.content text')) := by
  obtain ⟨kind, hkind⟩ := Line.exists_kind_of_marker hc
  obtain ⟨patch, hp, hf⟩ := fileChange_eq_ok_iff.1 h
  obtain ⟨q, hq, -⟩ := Patch.ofBlock_eq_ok_iff.1 hp
  obtain ⟨r, hfront, -⟩ := PatchReader.reads_append.1 hq
  have hother (text' : List Char) := Patch.exists_ofBlock_of_shape hfront (hr r hfront)
    (hkind text).2 (hkind text').2 (BodyLine.shape_ofKind kind text text') hp
  obtain ⟨-, last, -, -, hb, -⟩ := hother text
  obtain ⟨j, change, hj, hk, hcontent, hset⟩ := Patch.exists_change_of_bodyLine hb hf
  refine ⟨j, change, hj, by rw [(hkind text).1, hk], hcontent, fun text' => ?_⟩
  obtain ⟨patch', last', hp', hs, hb₁, hb'⟩ := hother text'
  obtain rfl : last' = last := by simpa [hb] using hb₁.symm
  exact fileChange_eq_ok_iff.2 ⟨patch', hp', hset patch' text' hs hb'⟩

end Block

namespace Scan

/-- A run may go over another text behind the marker of a body line. -/
theorem Run.of_marker {t : ScanState} {before after : List (Placement × Line)} {c : Char}
    {text : List Char} (hc : c ∈ Line.markers)
    (h : Run {} (before ++ (.body, c :: text) :: after) none t) (text' : List Char) :
    Run {} (before ++ (.body, c :: text') :: after) none t := by
  obtain ⟨s, h₁, h₂⟩ := h.of_append
  cases h₂ with
  | step hp hr =>
    obtain ⟨hs, -, rfl⟩ := ScanState.place_eq_body_iff.1 hp
    have h₁' := h₁.of_inBody (ScanState.coherent_initial _) hs (some (c :: text'))
    refine h₁'.append (.step (ScanState.place_eq_body_iff.2 ⟨hs, ?_, ?_⟩) hr)
    · exact Line.isBody_of_marker hc text'
    · exact Line.consume_of_marker hc s text' text

/-- A body line stands in a block, of which the lines before it leave a hunk open. -/
theorem Run.exists_block {t : ScanState} {before after : List (Placement × Line)} {line : Line}
    (h : Run {} (before ++ (.body, line) :: after) none t) :
    ∃ earlier front back later,
      (∀ line', Block.ofPlaced (before ++ (.body, line') :: after) =
        earlier ++ (front ++ line' :: back) :: later) ∧
      ∀ r, ({} : PatchReader).Reads front r → r.hunk.isSome = true := by
  obtain ⟨s, h₁, h₂⟩ := h.of_append
  cases h₂ with
  | step hp hr =>
    obtain ⟨hs, -, rfl⟩ := ScanState.place_eq_body_iff.1 hp
    have htr : Block.Tracks ([] ++ before) s := h₁.tracks Block.tracks_initial
    obtain ⟨earlier, he⟩ := htr.blocks (ScanState.inBody_iff.1 hs).1
    refine ⟨earlier, Block.current before, (Block.gather after).1, (Block.gather after).2,
      fun line' => he _, fun r hreads => ?_⟩
    obtain ⟨hunk, hh, -⟩ := h₁.inStep hs r hreads
    rw [hh]
    rfl

end Scan

namespace ParsedDiff

/-- A change of content leaves the totals as they are. -/
theorem summary_withContent (diff : ParsedDiff) (i j : Nat) (content : List Char) :
    (diff.withContent i j content).summary = diff.summary := by
  have hcount (kind : ChangeKind) (file : FileChange) :
      (file.withContent j content).count kind = file.count kind := by
    have hk := map_modify Change.kind (·.withContent content) (fun _ => rfl) file.changes j
    have hc (changes : List Change) : changes.countP (·.kind = kind) =
        (changes.map Change.kind).countP (· = kind) := by
      rw [List.countP_map]
      rfl
    rw [FileChange.count, FileChange.count, hc, hc, ← hk]
    rfl
  simp only [summary, withContent, List.length_modify]
  rw [map_modify FileChange.additions _ (hcount .added),
    map_modify FileChange.deletions _ (hcount .removed)]

/-- Another text stands behind the marker of a body line: the scan goes over it, and one block has
it in place of the old text. -/
theorem parse_of_run {before after : List (Placement × Line)} {c : Char} {text : List Char}
    {t : ScanState} {files : List FileChange} (hc : c ∈ Line.markers)
    (hr : Scan.Run {} (before ++ (.body, c :: text) :: after) none t)
    (hf : List.Forall₂ (fun block file => Block.fileChange block = .ok file)
      (Block.ofPlaced (before ++ (.body, c :: text) :: after)) files) :
    ∃ i j file change, files[i]? = some file ∧ file.changes[j]? = some change ∧
      Line.kind? (c :: text) = some change.kind ∧
      change.content = String.ofList (Line.content text) ∧
      ∀ text', (Block.ofPlaced (before ++ (.body, c :: text') :: after)).length =
          (Block.ofPlaced (before ++ (.body, c :: text) :: after)).length ∧
        List.Forall₂ (fun block file => Block.fileChange block = .ok file)
          (Block.ofPlaced (before ++ (.body, c :: text') :: after))
          (files.modify i (·.withContent j (Line.content text'))) := by
  obtain ⟨earlier, front, back, later, hblocks, hopen⟩ := hr.exists_block
  rw [hblocks] at hf
  obtain ⟨first, rest, rfl, hfirst, hrest⟩ := exists_of_forall₂_append hf
  cases hrest with
  | cons hfile hlast =>
    rename_i file last
    obtain ⟨j, change, hj, hk, hcontent, hset⟩ := Block.exists_change_of_bodyLine hc hopen hfile
    refine ⟨first.length, j, file, change, by simp, hj, hk, hcontent, fun text' => ⟨?_, ?_⟩⟩
    · rw [hblocks, hblocks]
      simp
    · rw [hblocks, modify_length_append]
      exact List.rel_append hfirst (.cons (hset text') hlast)

/-- In an accepted diff, another text may stand behind the marker of any line of a hunk body. The
blocks are as many as before, and the result shows the text in the content of the one change of
that line and nowhere else. -/
theorem parse_replace_content {front back text : List Char} {c : Char} {diff : ParsedDiff}
    (hf : Text.Whole front) (hb : Text.Breaks back) (ht : '\n' ∉ text) (hc : c ∈ Line.markers)
    (hp : (Scan.ofLines (Text.lines (front ++ c :: text ++ back))).placed[
      (Text.lines front).length]? = some (.body, c :: text))
    (h : parse (String.ofList (front ++ c :: text ++ back)) = .ok diff) :
    ∃ i j file change, diff.files[i]? = some file ∧ file.changes[j]? = some change ∧
      Line.kind? (c :: text) = some change.kind ∧
      change.content = String.ofList (Line.content text) ∧
      ∀ text' : List Char, '\n' ∉ text' → '\r' ∉ text' →
        parse (String.ofList (front ++ c :: text' ++ back)) = .ok (diff.withContent i j text') ∧
        (diff.withContent i j text').summary = diff.summary ∧
        ∃ blocks blocks', Block.split (String.ofList (front ++ c :: text ++ back)) = .ok blocks ∧
          Block.split (String.ofList (front ++ c :: text' ++ back)) = .ok blocks' ∧
          blocks'.length = blocks.length := by
  have hlines (other : List Char) (ho : '\n' ∉ c :: other) :
      Text.lines (front ++ c :: other ++ back) =
        Text.lines front ++ (c :: other) :: Text.lines (back.drop 1) :=
    Text.lines_between hf hb (by simp) ho
  have hcn : c ≠ '\n' := by
    rintro rfl
    simp [Line.markers] at hc
  obtain ⟨blocks, hs, hfiles⟩ := parse_eq_ok_iff.1 h
  obtain ⟨placed, t, hr, hsnd, rfl⟩ := Block.ofLines_eq_ok_iff.1 hs
  rw [String.toList_ofList] at hsnd
  obtain ⟨before, after, rfl, hbefore⟩ : ∃ before after,
      placed = before ++ (.body, c :: text) :: after ∧ before.map Prod.snd = Text.lines front := by
    rw [← hsnd, Scan.ofLines, hr.after_eq] at hp
    obtain ⟨hlt, hget⟩ := List.getElem?_eq_some_iff.1 hp
    rw [hlines text (by simp [hcn.symm, ht])] at hsnd
    refine ⟨placed.take (Text.lines front).length, placed.drop ((Text.lines front).length + 1), ?_,
      ?_⟩
    · rw [← hget, ← List.drop_eq_getElem_cons, List.take_append_drop]
    · rw [List.map_take, hsnd, List.take_left]
  obtain ⟨i, j, file, change, hi, hj, hk, hcontent, hset⟩ := parse_of_run hc hr hfiles
  refine ⟨i, j, file, change, hi, hj, hk, hcontent, fun text' hn hcr => ?_⟩
  have hsplit : Block.split (String.ofList (front ++ c :: text' ++ back)) =
      .ok (Block.ofPlaced (before ++ (.body, c :: text') :: after)) := by
    refine Block.ofLines_eq_ok_iff.2 ⟨_, t, hr.of_marker hc text', ?_, rfl⟩
    rw [hlines text (by simp [hcn.symm, ht]), List.map_append, hbefore] at hsnd
    rw [String.toList_ofList, hlines text' (by simp [hcn.symm, hn]), List.map_append, hbefore,
      List.map_cons, (List.cons_eq_cons.1 (List.append_cancel_left hsnd)).2]
  obtain ⟨hlength, hforall⟩ := hset text'
  refine ⟨parse_eq_ok_iff.2 ⟨_, hsplit, ?_⟩, summary_withContent _ _ _ _, _, _, hs, hsplit,
    hlength⟩
  rwa [Line.content_of_not_mem hcr] at hforall

/-- The lines of a hunk in front of its last one. -/
def openHunk : List Char := "--- a/f\n+++ b/f\n@@ -1,2 +1 @@\n x\n".toList

/-- What the hunk says when its last line removes `y`. -/
def openHunkFile : FileChange :=
  ⟨"f", none, .modified, "Unknown", false,
    [⟨.context, "x", some 1⟩, ⟨.removed, "y", some 2⟩]⟩

/-- The last line of the hunk becomes the header of another file, in front of its target line. -/
theorem parse_replace_content_header :
    parse (String.ofList (openHunk ++ '-' :: ['y'] ++ "\n--- a\n+++ b\n".toList)) =
      .ok ⟨[openHunkFile, ⟨"b", some "a", .renamed, "Unknown", false, []⟩]⟩ ∧
    ∃ i j, parse (String.ofList (openHunk ++ '-' :: "-- a/g".toList ++
      "\n--- a\n+++ b\n".toList)) =
      .ok (withContent ⟨[openHunkFile, ⟨"b", some "a", .renamed, "Unknown", false, []⟩]⟩ i j
        "-- a/g".toList) := by
  have h : parse (String.ofList (openHunk ++ '-' :: ['y'] ++ "\n--- a\n+++ b\n".toList)) =
      .ok ⟨[openHunkFile, ⟨"b", some "a", .renamed, "Unknown", false, []⟩]⟩ := rfl
  obtain ⟨i, j, -, -, -, -, -, -, hset⟩ :=
    parse_replace_content (.inr rfl) (.inr rfl) (by decide) (by decide) rfl h
  exact ⟨h, i, j, (hset "-- a/g".toList (by decide) (by decide)).1⟩

end ParsedDiff
end DiffReview
