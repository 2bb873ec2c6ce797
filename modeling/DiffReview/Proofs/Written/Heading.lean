import DiffReview.Proofs.Written.Entry

/-!
# Written headings

Every line that a writer puts outside hunk bodies is read as the heading that it was written for.
-/
namespace DiffReview

namespace HunkSide

/-- A run of digits ends at the first other character. -/
theorem takeWhile_digits {digits : List Char} (h : Heading.isMode digits = true) {c : Char}
    (hc : Text.isDigit c = false) (rest : List Char) :
    (digits ++ c :: rest).takeWhile Text.isDigit = digits ∧
    (digits ++ c :: rest).dropWhile Text.isDigit = c :: rest := by
  have ha : ∀ d ∈ digits, Text.isDigit d = true := by
    simp only [Heading.isMode, Bool.and_eq_true] at h
    exact List.all_eq_true.1 h.2
  have hn : ¬ Text.isDigit c = true := by simp [hc]
  rw [List.takeWhile_append_of_pos ha, List.dropWhile_append_of_pos ha,
    List.takeWhile_cons_of_neg hn, List.dropWhile_cons_of_neg hn, List.append_nil]
  exact ⟨rfl, rfl⟩

/-- A written side is read back. -/
theorem read_write {side : HunkSide} (h : side.IsWritten) (rest : List Char) :
    read (side.write ++ ' ' :: rest) = some (side, ' ' :: rest) := by
  obtain ⟨start, length⟩ := side
  obtain ⟨hs, hl⟩ := h
  have hne : start ≠ [] := by
    simp only [Heading.isMode, Bool.and_eq_true, decide_eq_true_eq] at hs
    exact hs.1
  obtain ⟨d, start, rfl⟩ := List.exists_cons_of_ne_nil hne
  cases length with
  | none =>
    obtain ⟨ht, hd⟩ := takeWhile_digits hs (c := ' ') (by decide) rest
    have hw : write ⟨d :: start, none⟩ ++ ' ' :: rest = (d :: start) ++ ' ' :: rest := by
      simp [write]
    rw [hw, read, ht, hd]
    rfl
  | some digits =>
    have hl' := hl digits rfl
    have hne : digits ≠ [] := by
      simp only [Heading.isMode, Bool.and_eq_true, decide_eq_true_eq] at hl'
      exact hl'.1
    obtain ⟨e, digits, rfl⟩ := List.exists_cons_of_ne_nil hne
    obtain ⟨ht, hd⟩ := takeWhile_digits hs (c := ',') (by decide) (e :: digits ++ ' ' :: rest)
    obtain ⟨ht', hd'⟩ := takeWhile_digits hl' (c := ' ') (by decide) rest
    have hw : write ⟨d :: start, some (e :: digits)⟩ ++ ' ' :: rest =
        (d :: start) ++ ',' :: (e :: digits ++ ' ' :: rest) := by
      simp [write]
    rw [hw, read, ht, hd]
    simp only [ht', hd']

end HunkSide

namespace HunkHeader

/-- A written hunk header is read back. -/
theorem ofLine?_write {header : HunkHeader} (ho : header.old.IsWritten) (hn : header.new.IsWritten)
    (title : List Char) : ofLine? (header.write title) = some header := by
  have hw : header.write title = ['@', '@', ' ', '-'] ++ (header.old.write ++ ' ' :: (['+'] ++
      (header.new.write ++ ' ' :: (['@', '@'] ++ title)))) := by
    simp [write]
  unfold ofLine?
  rw [hw, isPrefixOf?_append]
  simp only [Option.bind_eq_bind, Option.bind_some, HunkSide.read_write ho]
  rw [show ' ' :: (['+'] ++ (header.new.write ++ ' ' :: (['@', '@'] ++ title))) = [' ', '+'] ++
    (header.new.write ++ ' ' :: (['@', '@'] ++ title)) from rfl, isPrefixOf?_append]
  simp only [Option.bind_some, HunkSide.read_write hn]
  rw [show ' ' :: (['@', '@'] ++ title) = [' ', '@', '@'] ++ title from rfl, isPrefixOf?_append]
  rfl

end HunkHeader

namespace Heading

theorem ofLine_noteLine {text : List Char} (h : BodyLine.noteMark <+: text) :
    ofLine (BodyLine.write (.note text)) = .note := by
  obtain ⟨rest, rfl⟩ := h
  rfl

theorem ofLine_remark (l : RemarkLine) : ofLine l.line = .other := by
  obtain ⟨remark, text⟩ := l
  cases remark <;> rfl

theorem ofLine_newFile (mode : FileMode) :
    ofLine ("new file mode ".toList ++ mode.1) = .newFile := by
  have h : ofLine ("new file mode ".toList ++ mode.1) =
      if isMode mode.1 then .newFile else .other := rfl
  rw [h, if_pos mode.2]

theorem ofLine_deletedFile (mode : FileMode) :
    ofLine ("deleted file mode ".toList ++ mode.1) = .deletedFile := by
  have h : ofLine ("deleted file mode ".toList ++ mode.1) =
      if isMode mode.1 then .deletedFile else .other := rfl
  rw [h, if_pos mode.2]

theorem untilTab_of_not_mem {s : List Char} (h : '\t' ∉ s) : untilTab s = s := by
  have ha : ∀ c ∈ s, decide (c ≠ '\t') = true := by
    intro c hc
    have hne : c ≠ '\t' := fun he => h (he ▸ hc)
    simpa using hne
  have ht : untilTab (s ++ []) = s ++ untilTab [] := List.takeWhile_append_of_pos ha
  simpa [untilTab] using ht

theorem ofLine_source (s : List Char) (h : '\t' ∉ s) :
    ofLine (Mark.sourceMark ++ s) = .source s := by
  have hl : ofLine (Mark.sourceMark ++ s) = .source (untilTab s) := rfl
  rw [hl, untilTab_of_not_mem h]

theorem ofLine_target (s : List Char) (h : '\t' ∉ s) :
    ofLine (Mark.targetMark ++ s) = .target s := by
  have hl : ofLine (Mark.targetMark ++ s) = .target (untilTab s) := rfl
  rw [hl, untilTab_of_not_mem h]

/-- The last cut is the given one, if no later part passes its test. -/
theorem lastCutBefore?_eq {front back : List Char → Bool} {l r : List Char}
    (hl : front l = true) (hr : back r = true)
    (hlast : ∀ rest, ' ' :: rest <:+ r → back rest = false) {before after : List Char}
    (h : before.reverse ++ after = r) :
    lastCutBefore? front back (before ++ ' ' :: l.reverse) after = some (l, r) := by
  induction before generalizing after with
  | nil =>
    obtain rfl : after = r := h
    simp [lastCutBefore?, hl, hr]
  | cons c before ih =>
    have h' : before.reverse ++ c :: after = r := by simpa using h
    rw [List.cons_append, lastCutBefore?]
    by_cases hc : c = ' '
    · subst hc
      rw [hlast after ⟨before.reverse, h'⟩]
      simpa using ih h'
    · simpa [hc] using ih h'

theorem lastCut?_eq {front back : List Char → Bool} {l r : List Char}
    (hl : front l = true) (hr : back r = true)
    (hlast : ∀ rest, ' ' :: rest <:+ r → back rest = false) :
    lastCut? front back (l ++ ' ' :: r) = some (l, r) := by
  have hw : (l ++ ' ' :: r).reverse = r.reverse ++ ' ' :: l.reverse := by simp
  rw [lastCut?, hw]
  exact lastCutBefore?_eq hl hr hlast (by simp)

theorem isBelow_append {root : Char} (hr : root ≠ '"') {path : List Char} (h : path ≠ []) :
    isBelow root ([root, '/'] ++ path) = true := by
  obtain ⟨c, path, rfl⟩ := List.exists_cons_of_ne_nil h
  unfold isBelow
  split
  · rename_i hq
    exact absurd (List.cons_eq_cons.1 hq).1 hr
  · rename_i hq
    rw [decide_eq_true_eq]
    exact (List.cons_eq_cons.1 hq).1.symm
  · rename_i hq
    exact absurd rfl (hq root c path)

/-- A path below the second root starts nowhere in a text that has no space before `b/` or before
a quote. -/
theorem isBelow_of_suffix {path rest : List Char} (hm : ¬ [' ', 'b', '/'] <:+: path)
    (hq : ∀ c, ¬ [' ', '"', c] <:+: path) (h : ' ' :: rest <:+ path) :
    isBelow 'b' rest = false := by
  by_contra hne
  have hb : isBelow 'b' rest = true := by simpa using hne
  unfold isBelow at hb
  split at hb
  · rename_i c d tail
    exact hq c (List.IsInfix.trans ⟨[], '/' :: d :: tail, rfl⟩ h.isInfix)
  · rename_i c d tail _
    obtain rfl : c = 'b' := by simpa using hb
    exact hm (List.IsInfix.trans ⟨[], d :: tail, rfl⟩ h.isInfix)
  · cases hb

/-- What ends a text and begins with a space ends the part of it behind every front without a
space. -/
theorem suffix_of_suffix_append (front : List Char) {path rest : List Char} (hf : ' ' ∉ front)
    (h : ' ' :: rest <:+ front ++ path) : ' ' :: rest <:+ path := by
  induction front with
  | nil => exact h
  | cons c front ih =>
    have hc : ' ' ≠ c := fun he => hf (he ▸ List.mem_cons_self)
    exact ih (fun hm => hf (List.mem_cons_of_mem _ hm))
      ((List.suffix_cons_iff.1 h).resolve_left (by simp [hc]))

/-- A line with the mark of a command and two paths is that command. -/
theorem ofLine_of_paths? {rest old new : List Char} (h : paths? rest = some (old, new)) :
    ofLine ("diff --git ".toList ++ rest) = .command old new := by
  have hd : ("diff --git ".toList ++ rest).drop 11 = rest := rfl
  rw [ofLine, hd, h]
  rfl

/-- A command line is cut between its two sides, if the new one holds no other start of a path. -/
theorem ofLine_command {old new : List Char} (ho : isBelow 'a' old = true)
    (hn : isBelow 'b' new = true) (hto : '\t' ∉ old) (htn : '\t' ∉ new)
    (hlast : ∀ rest, ' ' :: rest <:+ new → isBelow 'b' rest = false) :
    ofLine ("diff --git ".toList ++ old ++ ' ' :: new) = .command old new := by
  have ht : '\t' ∉ old ++ ' ' :: new := by simp [hto, htn]
  have hp : paths? (old ++ ' ' :: new) = some (old, new) := by
    rw [paths?, rootedPaths?, untilTab_of_not_mem ht, lastCut?_eq ho hn hlast]
    rfl
  rw [List.append_assoc]
  exact ofLine_of_paths? hp

/-- The command line of an alteration is cut between its two paths. -/
theorem ofLine_commandLine (alteration : Alteration) : ofLine alteration.commandLine =
    .command (['a', '/'] ++ alteration.oldPath.chars) (['b', '/'] ++ alteration.newPath.chars) := by
  refine ofLine_command (isBelow_append (by decide) alteration.oldPath.nonempty)
    (isBelow_append (by decide) alteration.newPath.nonempty)
    (by simp [alteration.oldPath.noTab]) (by simp [alteration.newPath.noTab]) fun rest h => ?_
  exact isBelow_of_suffix alteration.newPath.noMark
    (fun c hq => alteration.newPath.noQuote (hq.subset (by simp)))
    (suffix_of_suffix_append ['b', '/'] (by decide) h)

/-- A name is found at the latest where it ends. -/
theorem shortestName?_isSome {α : Type} {accept : List Char → Option α} {name rest : List Char}
    (hn : name ≠ []) (ht : '\t' ∉ name) (ha : (accept rest).isSome = true) (taken : List Char) :
    (shortestName? accept taken (name ++ rest)).isSome = true := by
  induction name generalizing taken with
  | nil => exact absurd rfl hn
  | cons c name ih =>
    have hc : c ≠ '\t' := fun he => ht (by simp [he])
    rw [List.cons_append, shortestName?, if_neg hc]
    split
    · rfl
    · rename_i hnone
      refine ih ?_ (fun hm => ht (List.mem_cons_of_mem _ hm)) _
      rintro rfl
      rw [List.nil_append] at hnone
      rw [hnone] at ha
      cases ha

/-- A line with the mark of a notice about binary files and names is that notice. -/
theorem ofLine_of_shortestName? {rest source : List Char} {target : Option (List Char)}
    (h : shortestName? afterName? [] rest = some (source, target)) :
    ofLine ("Binary files ".toList ++ rest) = .binary source target := by
  have hn : binaryNames? ("Binary files ".toList ++ rest) = some (source, target) := h
  rw [ofLine, hn]
  rfl

/-- The written notice names two binary files. -/
theorem ofLine_binary (old new : BinaryName) : ∃ source target,
    ofLine ("Binary files ".toList ++ old.chars ++ " and ".toList ++ new.chars ++
      " differ".toList) = .binary source target := by
  have hsecond : (secondName? (new.chars ++ " differ".toList)).isSome = true := by
    rw [secondName?, Option.isSome_map]
    exact shortestName?_isSome new.nonempty new.noTab rfl []
  have hafter : (afterName? (" and ".toList ++ (new.chars ++ " differ".toList))).isSome = true := by
    have ha : afterName? (" and ".toList ++ (new.chars ++ " differ".toList)) =
        (secondName? (new.chars ++ " differ".toList)).map some := rfl
    rw [ha, Option.isSome_map]
    exact hsecond
  have hnames := shortestName?_isSome old.nonempty old.noTab hafter []
  obtain ⟨⟨source, target⟩, hs⟩ := Option.isSome_iff_exists.1 hnames
  refine ⟨source, target, ?_⟩
  have hl := ofLine_of_shortestName? hs
  simpa only [List.append_assoc] using hl

end Heading
end DiffReview
