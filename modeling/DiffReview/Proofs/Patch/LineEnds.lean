import DiffReview.Proofs.Diff.Content
import DiffReview.Proofs.Scan.LineEnds
import Mathlib.Data.List.TakeWhile

/-!
# Reading lines with carriage returns

In a hunk body a carriage return at the end of a line is read and leaves no trace. A heading with
one is the same heading, except where the heading takes its line to the very end: a command line, a
file mode, the notice of a binary patch, or a path that no tab ends.
-/
namespace DiffReview

namespace Line

/-- A heading that takes the line to its very end. -/
def isExposed (line : Line) : Bool :=
  line.startsWith "diff --git ".toList || line.startsWith "new file mode ".toList ||
    line.startsWith "deleted file mode ".toList || line = "GIT binary patch".toList ||
    (line.startsWith Mark.sourceMark || line.startsWith Mark.targetMark) && '\t' ∉ line

/-- A path line that is not exposed holds a tab behind its path. -/
theorem tab_mem_of_not_isExposed {mark text : List Char}
    (hm : mark ∈ [Mark.sourceMark, Mark.targetMark]) (h : isExposed (mark ++ text) = false) :
    '\t' ∈ text := by
  have hs : startsWith (mark ++ text) mark = true := by simp [startsWith]
  have hmark : '\t' ∉ mark := by
    rcases List.mem_pair.1 hm with rfl | rfl <;> decide
  have hpath : (startsWith (mark ++ text) Mark.sourceMark ||
      startsWith (mark ++ text) Mark.targetMark) = true := by
    rcases List.mem_pair.1 hm with rfl | rfl
    · rw [hs, Bool.true_or]
    · rw [hs, Bool.or_true]
  unfold isExposed at h
  rw [hpath, Bool.true_and, Bool.or_eq_false_iff, decide_eq_false_iff_not, not_not] at h
  exact (List.mem_append.1 h.2).resolve_left hmark

theorem not_isExposed_return {line : Line} (h : line.isExposed = false) :
    isExposed (line ++ ['\r']) = false := by
  have hs (mark : List Char) (hm : '\r' ∉ mark) := startsWith_return hm line
  have hpatch : line ++ ['\r'] ≠ "GIT binary patch".toList := by
    intro he
    have hlast := congrArg List.getLast? he
    rw [List.getLast?_concat] at hlast
    exact absurd hlast (by decide)
  have htab : '\t' ∈ line ++ ['\r'] ↔ '\t' ∈ line := by simp
  unfold isExposed at h ⊢
  rw [hs _ (by decide), hs _ (by decide), hs _ (by decide), hs _ (by decide), hs _ (by decide)]
  simp only [Bool.or_eq_false_iff, decide_eq_false_iff_not] at h ⊢
  simp only [htab]
  exact ⟨⟨h.1.1, hpatch⟩, h.2⟩

end Line

/-- What is read at the front of a text, up to a character that does not satisfy a test, does not
depend on a last character behind it. -/
theorem Text.takeWhile_append_of_dropWhile {p : Char → Bool} {text back : List Char} {d : Char}
    (h : text.dropWhile p = d :: back) (c : Char) :
    (text ++ [c]).takeWhile p = text.takeWhile p ∧
    (text ++ [c]).dropWhile p = d :: back ++ [c] := by
  have hlength : (text.takeWhile p).length ≠ text.length := by
    intro he
    have hl := congrArg List.length (List.takeWhile_append_dropWhile (p := p) (l := text))
    rw [List.length_append, h, List.length_cons] at hl
    omega
  rw [List.takeWhile_append, if_neg hlength, List.dropWhile_append, h]
  exact ⟨rfl, rfl⟩

namespace Heading

theorem skipStamp?_return {α : Type} {f : List Char → Option α}
    (hf : ∀ text, f (text ++ ['\r']) = f text) (hb : f [' '] = none) (text : List Char) :
    (skipStamp? (text ++ ['\r'])).bind f = (skipStamp? text).bind f := by
  cases text with
  | nil => exact hf []
  | cons c text =>
    by_cases hc : c = '\t'
    · subst hc
      rw [List.cons_append, skipStamp?, skipStamp?]
      cases hd : text.dropWhile isStampChar with
      | nil =>
        -- the stamp goes on to the end of the text, where the carriage return belongs to it
        have hall := List.dropWhile_eq_nil_iff.1 hd
        have hreturn : (text ++ ['\r']).takeWhile isStampChar = text ++ ['\r'] := by
          rw [List.takeWhile_append_of_pos hall]
          rfl
        rw [hreturn, List.reverse_append]
        split
        · simp_all
        · split
          · exact hb.symm
          · rfl
      | cons d back =>
        obtain ⟨ht, hdrop⟩ := Text.takeWhile_append_of_dropWhile hd '\r'
        rw [ht, hdrop]
        split
        · exact hf (' ' :: d :: back)
        · rfl
    · have hskip (text : List Char) : skipStamp? (c :: text) = some (c :: text) := by
        rw [skipStamp?]
        rintro _ ⟨⟩
        exact hc rfl
      rw [List.cons_append, hskip, hskip]
      exact hf (c :: text)

theorem shortestName?_return {α : Type} {accept : List Char → Option α}
    (ha : ∀ text, accept (text ++ ['\r']) = accept text) (hn : accept [] = none)
    (taken text : List Char) :
    shortestName? accept taken (text ++ ['\r']) = shortestName? accept taken text := by
  induction text generalizing taken with
  | nil => simp [shortestName?, hn]
  | cons c text ih =>
    rw [List.cons_append, shortestName?, shortestName?, ha]
    split
    · rfl
    · split
      · rfl
      · exact ih _

theorem secondName?_return (text : List Char) :
    secondName? (text ++ ['\r']) = secondName? text := by
  have hf (text : List Char) : (if Line.differs (text ++ ['\r']) then some () else none) =
      if Line.differs text then some () else none := by
    rw [Line.differs_return]
  unfold secondName?
  dsimp only
  rw [shortestName?_return (fun text => skipStamp?_return hf (by decide) text) (by decide)]

theorem afterName?_return (text : List Char) : afterName? (text ++ ['\r']) = afterName? text := by
  unfold afterName?
  refine skipStamp?_return (fun text => ?_) (by decide) text
  rw [Text.isPrefixOf?_concat (by decide)]
  cases " and ".toList.isPrefixOf? text with
  | none => simp only [Option.map_none, Line.differs_return]
  | some rest => simp only [Option.map_some, secondName?_return]

theorem binaryNames?_return (line : Line) :
    binaryNames? (line ++ ['\r']) = binaryNames? line := by
  unfold binaryNames?
  rw [Line.afterBinary?_return]
  cases Line.afterBinary? line with
  | none => rfl
  | some rest => exact shortestName?_return afterName?_return (by decide) [] rest

/-- A path line is cut at its tab. -/
theorem untilTab_return {text : List Char} (h : '\t' ∈ text) :
    untilTab (text ++ ['\r']) = untilTab text := by
  cases hd : text.dropWhile (· ≠ '\t') with
  | nil =>
    have hall := List.dropWhile_eq_nil_iff.1 hd '\t' h
    simp at hall
  | cons d back => exact (Text.takeWhile_append_of_dropWhile hd '\r').1

/-- A heading that is not exposed is found by the marks that are left. -/
theorem ofLine_of_not_isExposed {line : Line} (hne : line ≠ []) (hx : line.isExposed = false) :
    ofLine line =
      if Line.startsWith line Mark.sourceMark then .source (untilTab (line.drop 4))
      else if Line.startsWith line Mark.targetMark then .target (untilTab (line.drop 4))
      else if Line.startsWith line ['@', '@'] then
        match HunkHeader.ofLine? line with
        | some header => .hunk header
        | none => .other
      else if Line.startsWith line "\\ No newline at end of file".toList then .note
      else match binaryNames? line with
        | some (old, new) => .binary old new
        | none => .other := by
  unfold Line.isExposed at hx
  simp only [Bool.or_eq_false_iff, decide_eq_false_iff_not] at hx
  obtain ⟨⟨⟨⟨hcommand, hnew⟩, hdeleted⟩, hpatch⟩, -⟩ := hx
  rw [ofLine, if_neg hne, hcommand, hnew, hdeleted, if_neg hpatch]
  rfl

/-- A heading that is not exposed is the same with a carriage return behind it. -/
theorem ofLine_return {line : Line} (hne : line ≠ []) (hx : line.isExposed = false) :
    ofLine (line ++ ['\r']) = ofLine line := by
  have hs (mark : List Char) (hm : '\r' ∉ mark) := Line.startsWith_return hm line
  rw [ofLine_of_not_isExposed (by simp) (Line.not_isExposed_return hx),
    ofLine_of_not_isExposed hne hx, hs _ (by decide), hs _ (by decide), hs _ (by decide),
    hs _ (by decide), HunkHeader.ofLine?_return, binaryNames?_return]
  split_ifs with hsource htarget
  · obtain ⟨text, rfl⟩ := Line.exists_of_startsWith hsource
    have ht := Line.tab_mem_of_not_isExposed (by simp) hx
    exact congrArg Heading.source (untilTab_return ht)
  · obtain ⟨text, rfl⟩ := Line.exists_of_startsWith htarget
    have ht := Line.tab_mem_of_not_isExposed (by simp) hx
    exact congrArg Heading.target (untilTab_return ht)
  · rfl
  · rfl
  · rfl

/-- Two lines that end alike are the same heading, unless it is exposed. -/
theorem ofLine_of_endsAlike {line other : Line} (h : line.EndsAlike other) (hne : line ≠ [])
    (hx : line.isExposed = false) : ofLine other = ofLine line := by
  rcases h.eq with rfl | rfl
  · rfl
  · exact ofLine_return hne hx

end Heading

namespace BodyLine

/-- Two lines that end alike are body lines of one kind with one content. -/
theorem ofLine?_of_endsAlike {line other : Line} (h : line.EndsAlike other) :
    (ofLine? other).map shape = (ofLine? line).map shape ∧
    (ofLine? other).bind item? = (ofLine? line).bind item? := by
  rcases h.eq with rfl | rfl
  · exact ⟨rfl, rfl⟩
  · cases line with
    | nil => exact ⟨rfl, rfl⟩
    | cons c text =>
      have hc : c ≠ '\r' := fun he => h.clean (he ▸ List.mem_cons_self)
      simp only [List.cons_append, ofLine?]
      split_ifs <;> simp [shape, item?, Line.content_return]

/-- Lines that end alike are read as bodies of one shape with the same items. -/
theorem mapM_of_endsAlike {lines others : List Line} (h : List.Forall₂ Line.EndsAlike lines others)
    {body body' : List BodyLine} (hb : lines.mapM ofLine? = some body)
    (hb' : others.mapM ofLine? = some body') :
    body'.map shape = body.map shape ∧ body'.filterMap item? = body.filterMap item? := by
  induction h generalizing body body' with
  | nil =>
    cases hb
    cases hb'
    exact ⟨rfl, rfl⟩
  | cons hl _ ih =>
    obtain ⟨line, rest, hl₁, hr, rfl⟩ := mapM_cons_eq_some hb
    obtain ⟨line', rest', hl₂, hr', rfl⟩ := mapM_cons_eq_some hb'
    obtain ⟨hshape, hitem⟩ := ofLine?_of_endsAlike hl
    rw [hl₁, hl₂] at hshape hitem
    obtain ⟨hrs, hri⟩ := ih hr hr'
    refine ⟨?_, ?_⟩
    · rw [List.map_cons, List.map_cons, Option.some.inj hshape, hrs]
    · have hi : line'.item? = line.item? := hitem
      rw [List.filterMap_cons, List.filterMap_cons, hi, hri]

end BodyLine

/-- The two hunks have one header and lines that end alike. -/
structure HunkLines.EndsAlike (lines others : HunkLines) : Prop where
  header : others.header = lines.header
  body : List.Forall₂ Line.EndsAlike lines.body others.body

namespace Block

theorem endsAlike_fill {lines others : List Line} (h : List.Forall₂ Line.EndsAlike lines others)
    (old new : Nat) : List.Forall₂ Line.EndsAlike (fill old new lines) (fill old new others) := by
  induction h generalizing old new with
  | nil => exact .nil
  | cons hl _ ih =>
    unfold fill
    rw [hl.congr Line.oldWidth_return, hl.congr Line.newWidth_return]
    split
    · exact .nil
    · exact .cons hl (ih _ _)

/-- Blocks that end alike have hunks that end alike. -/
theorem endsAlike_hunkLines {block other : Block} (h : EndsAlike block other) :
    List.Forall₂ HunkLines.EndsAlike (hunkLines block) (hunkLines other) := by
  induction h with
  | nil => exact .nil
  | @cons line line' rest rest' hl hrest ih =>
    have hheader := hl.congr HunkHeader.ofLine?_return
    cases hh : HunkHeader.ofLine? line with
    | none =>
      rw [hh] at hheader
      rwa [hunkLines_of_none hh, hunkLines_of_none hheader]
    | some header =>
      rw [hh] at hheader
      rw [hunkLines_of_header hh, hunkLines_of_header hheader]
      refine .cons ⟨rfl, ?_⟩ ih
      unfold bodyAfter
      split
      · exact endsAlike_fill hrest _ _
      · exact .nil

end Block

namespace HunkLines

/-- Hunks that end alike are numbered alike. -/
theorem Makes.numbered_eq {lines others : HunkLines} {hunk hunk' : Hunk} (hm : lines.Makes hunk)
    (h : lines.EndsAlike others) (hm' : others.Makes hunk') : hunk'.numbered = hunk.numbered := by
  obtain ⟨body, notes, hb, hl, hn⟩ := hm.body
  obtain ⟨body', notes', hb', hl', hn'⟩ := hm'.body
  obtain ⟨hshape, hitem⟩ := BodyLine.mapM_of_endsAlike h.body hl hl'
  have ho := hm'.old
  have hnew := hm'.new
  rw [h.header, hm.old, Except.ok.injEq] at ho
  rw [h.header, hm.new, Except.ok.injEq] at hnew
  rw [Hunk.numbered, Hunk.numbered, hb, hb', Numbered.ofBody_append, Numbered.ofBody_append,
    Numbered.ofBody_of_isNote hn, Numbered.ofBody_of_isNote hn', List.append_nil, List.append_nil,
    ← ho, ← hnew]
  refine Numbered.eq_of_map_shape_of_map_item ?_ ?_
  · rw [Numbered.map_shape_ofBody, Numbered.map_shape_ofBody, hshape]
  · rw [Numbered.map_item_ofBody, Numbered.map_item_ofBody, hitem]

theorem flatMap_numbered_eq {lines others : List HunkLines}
    (h : List.Forall₂ EndsAlike lines others) {hunks hunks' : List Hunk}
    (hm : List.Forall₂ Makes lines hunks) (hm' : List.Forall₂ Makes others hunks') :
    hunks'.flatMap Hunk.numbered = hunks.flatMap Hunk.numbered := by
  induction h generalizing hunks hunks' with
  | nil =>
    cases hm
    cases hm'
    rfl
  | cons hl _ ih =>
    cases hm with
    | cons hfirst hrest =>
      cases hm' with
      | cons hfirst' hrest' =>
        rw [List.flatMap_cons, List.flatMap_cons, hfirst.numbered_eq hl hfirst', ih hrest hrest']

end HunkLines

namespace Patch

/-- Patches of blocks that end alike have the same numbered lines. -/
theorem numbered_eq_of_endsAlike {block other : Block} (h : Block.EndsAlike block other)
    {patch patch' : Patch} (hp : ofBlock block = .ok [patch]) (hp' : ofBlock other = .ok [patch']) :
    patch'.numbered = patch.numbered := by
  have hm := makes_of_ofBlock hp
  have hm' := makes_of_ofBlock hp'
  exact HunkLines.flatMap_numbered_eq (Block.endsAlike_hunkLines h) hm hm'

end Patch

namespace PatchReader

/-- A heading that is read is read the same from another line: the line itself shows only in
faults. -/
theorem readHeading_of_ofLine {r q : PatchReader} {line line' : Line}
    (hl : Heading.ofLine line' = Heading.ofLine line) (h : r.readHeading line = .ok q) :
    r.readHeading line' = .ok q :=
  readHeading_eq_ok_iff.2 (hl ▸ readHeading_eq_ok_iff.1 h)

/-- Readers of one shape read alike two lines that are the same heading, or body lines of one
shape. -/
theorem exists_readLine_of_alike {r r' q : PatchReader} {line line' : Line}
    (hr : r'.shape = r.shape)
    (hbody : r.hunk.isSome = true →
      (BodyLine.ofLine? line').map BodyLine.shape = (BodyLine.ofLine? line).map BodyLine.shape)
    (hheading : r.hunk = none → Heading.ofLine line' = Heading.ofLine line)
    (h : r.readLine line = .ok q) : ∃ q', r'.readLine line' = .ok q' ∧ q'.shape = q.shape := by
  cases hh : r.hunk with
  | some hunk =>
    have hs : r.hunk.isSome = true := by rw [hh]; rfl
    exact exists_readLine_of_shape hr (.inr ⟨hs, hbody hs⟩) h
  | none =>
    obtain ⟨q', hq', hshape⟩ := exists_readLine_of_shape hr (.inl rfl) h
    have hn' : r'.hunk = none := by
      have hhunk : r'.hunk.map OpenHunk.shape = r.hunk.map OpenHunk.shape := congrArg hunk hr
      rw [hh] at hhunk
      exact Option.map_eq_none_iff.1 hhunk
    rcases readLine_eq_ok_iff.1 hq' with ⟨hunk, hs, -⟩ | ⟨-, hread⟩
    · simp [hn'] at hs
    · have hread' := readHeading_of_ofLine (hheading hh) hread
      exact ⟨q', readLine_eq_ok_iff.2 (.inr ⟨hn', hread'⟩), hshape⟩

/-- Readers of one shape read alike two lines that end alike and are the same heading. -/
theorem exists_readLine_of_endsAlike {r r' q : PatchReader} {line line' : Line}
    (hr : r'.shape = r.shape) (hl : line.EndsAlike line')
    (hheading : r.hunk = none → Heading.ofLine line' = Heading.ofLine line)
    (h : r.readLine line = .ok q) : ∃ q', r'.readLine line' = .ok q' ∧ q'.shape = q.shape :=
  exists_readLine_of_alike hr (fun _ => (BodyLine.ofLine?_of_endsAlike hl).1) hheading h

theorem exists_completes_nil {r r' : PatchReader} (hr : r'.shape = r.shape) {patches : List Patch}
    (h : r.Completes [] patches) : ∃ patches', r'.Completes [] patches' ∧
      patches'.map Patch.shape = patches.map Patch.shape := by
  obtain ⟨patches', hfinish, hshape⟩ := exists_finish_of_shape hr (completes_nil.1 h)
  exact ⟨patches', completes_nil.2 hfinish, hshape⟩

end PatchReader
end DiffReview
