import DiffReview.Diff.HunkHeader
import DiffReview.Diff.Mark
import Mathlib.Data.List.Forall2

/-!
# Carriage returns at the ends of lines

A text without carriage returns is given one in front of every newline. Its lines then end in one,
except a last line that no newline ends. The characters at the start of a line, the lengths in a
hunk header and the content of a body line are the same with the carriage return and without it.
-/
namespace DiffReview

namespace Text

/-- The text with a carriage return in front of every newline. -/
def crlf (text : List Char) : List Char :=
  text.flatMap fun c => if c = '\n' then ['\r', '\n'] else [c]

theorem crlf_cons_of_ne {c : Char} (hc : c ≠ '\n') (text : List Char) :
    crlf (c :: text) = c :: crlf text := by
  simp [crlf, hc]

theorem crlf_newline (text : List Char) : crlf ('\n' :: text) = '\r' :: '\n' :: crlf text := by
  simp [crlf]

/-- The text with a carriage return in front of each chosen newline. The newlines are counted from
zero. -/
def crlfAt (chosen : Nat → Bool) : List Char → List Char
  | [] => []
  | c :: text =>
    if c = '\n' then
      (if chosen 0 then ['\r', '\n'] else ['\n']) ++ crlfAt (fun n => chosen (n + 1)) text
    else c :: crlfAt chosen text

theorem crlfAt_cons_of_ne {c : Char} (hc : c ≠ '\n') (chosen : Nat → Bool) (text : List Char) :
    crlfAt chosen (c :: text) = c :: crlfAt chosen text := if_neg hc

theorem crlfAt_newline (chosen : Nat → Bool) (text : List Char) : crlfAt chosen ('\n' :: text) =
    (if chosen 0 then ['\r', '\n'] else ['\n']) ++ crlfAt (fun n => chosen (n + 1)) text :=
  if_pos rfl

/-- All newlines can be chosen. -/
theorem crlf_eq_crlfAt (text : List Char) : crlf text = crlfAt (fun _ => true) text := by
  induction text with
  | nil => rfl
  | cons c text ih =>
    by_cases hn : c = '\n'
    · subst hn
      rw [crlf_newline, crlfAt_newline, ih]
      rfl
    · rw [crlf_cons_of_ne hn, crlfAt_cons_of_ne hn, ih]

theorem unifyNewlines_cons_of_ne {c : Char} (hc : c ≠ '\r') (text : List Char) :
    unifyNewlines (c :: text) = c :: unifyNewlines text := by
  rw [unifyNewlines]
  · rintro cs rfl
    exact absurd rfl hc
  · rintro rfl
    exact hc rfl

/-- A text without carriage returns is unified already. -/
theorem unifyNewlines_of_not_mem {text : List Char} (h : '\r' ∉ text) :
    unifyNewlines text = text := by
  induction text with
  | nil => rfl
  | cons c text ih =>
    have hc : c ≠ '\r' := fun he => h (he ▸ List.mem_cons_self)
    rw [unifyNewlines_cons_of_ne hc, ih fun hm => h (List.mem_cons_of_mem _ hm)]

/-- Unifying takes the carriage returns away again. -/
theorem unifyNewlines_crlf {text : List Char} (h : '\r' ∉ text) :
    unifyNewlines (crlf text) = text := by
  induction text with
  | nil => rfl
  | cons c text ih =>
    have hc : c ≠ '\r' := fun he => h (he ▸ List.mem_cons_self)
    have ht := ih fun hm => h (List.mem_cons_of_mem _ hm)
    by_cases hn : c = '\n'
    · subst hn
      rw [crlf_newline, unifyNewlines, ht]
    · rw [crlf_cons_of_ne hn, unifyNewlines_cons_of_ne hc, ht]

theorem takeWhile_concat {p : Char → Bool} {c : Char} (hc : p c = false) (text : List Char) :
    (text ++ [c]).takeWhile p = text.takeWhile p := by
  induction text with
  | nil => simp [hc]
  | cons d text ih => simp [List.takeWhile_cons, ih]

theorem dropWhile_concat {p : Char → Bool} {c : Char} (hc : p c = false) (text : List Char) :
    (text ++ [c]).dropWhile p = text.dropWhile p ++ [c] := by
  induction text with
  | nil => simp [hc]
  | cons d text ih =>
    by_cases hd : p d = true
    · simp [hd, ih]
    · simp [hd]

/-- A mark that does not hold the last character is found without it. -/
theorem isPrefixOf?_concat {mark : List Char} {c : Char} (hm : c ∉ mark) (text : List Char) :
    mark.isPrefixOf? (text ++ [c]) = (mark.isPrefixOf? text).map (· ++ [c]) := by
  induction mark generalizing text with
  | nil => simp [List.isPrefixOf?]
  | cons d mark ih =>
    have hd : d ≠ c := fun he => hm (he ▸ List.mem_cons_self)
    cases text with
    | nil => simp [List.isPrefixOf?, hd]
    | cons e text =>
      have hrest := ih (fun h => hm (List.mem_cons_of_mem _ h)) text
      by_cases he : d = e
      · simp [List.isPrefixOf?, he, hrest]
      · simp [List.isPrefixOf?, he]

theorem isPrefixOf_concat {mark : List Char} {c : Char} (hm : c ∉ mark) (text : List Char) :
    mark.isPrefixOf (text ++ [c]) = mark.isPrefixOf text := by
  induction mark generalizing text with
  | nil => simp
  | cons d mark ih =>
    have hd : d ≠ c := fun he => hm (he ▸ List.mem_cons_self)
    cases text with
    | nil => simp [List.isPrefixOf, hd]
    | cons e text =>
      have hrest := ih (fun h => hm (List.mem_cons_of_mem _ h)) text
      simp [List.isPrefixOf, hrest]

end Text

namespace Line

/-- The other line is the line, or has a carriage return more at its end. The line has none. -/
structure EndsAlike (line other : Line) : Prop where
  clean : '\r' ∉ line
  eq : other = line ∨ other = line ++ ['\r']

theorem startsWith_return {mark : List Char} (hm : '\r' ∉ mark) (line : Line) :
    startsWith (line ++ ['\r']) mark = startsWith line mark :=
  Text.isPrefixOf_concat hm line

theorem isBlank_return (line : Line) : isBlank (line ++ ['\r']) = isBlank line := by
  simp [isBlank]

theorem content_return (line : Line) : content (line ++ ['\r']) = content line := by
  simp [content, Text.trimEnd]

theorem isSignature_return (line : Line) : isSignature (line ++ ['\r']) = isSignature line := by
  simp only [isSignature, content_return]

theorem isBody_return (line : Line) : isBody (line ++ ['\r']) = isBody line := by
  cases line with
  | nil => rfl
  | cons c text =>
    have hb := isBlank_return (c :: text)
    rw [List.cons_append] at hb ⊢
    simp only [isBody, hb]

theorem oldWidth_return (line : Line) : oldWidth (line ++ ['\r']) = oldWidth line := by
  cases line with
  | nil => rfl
  | cons c text =>
    rw [List.cons_append]
    unfold oldWidth
    split <;> split <;> simp_all

theorem newWidth_return (line : Line) : newWidth (line ++ ['\r']) = newWidth line := by
  cases line with
  | nil => rfl
  | cons c text =>
    rw [List.cons_append]
    unfold newWidth
    split <;> split <;> simp_all

theorem differs_return (text : List Char) : differs (text ++ ['\r']) = differs text := by
  unfold differs
  rw [Text.isPrefixOf_concat (by decide), Text.isPrefixOf_concat (by decide)]

theorem differsLater_return (text : List Char) :
    differsLater (text ++ ['\r']) = differsLater text := by
  induction text with
  | nil => rfl
  | cons c text ih => simp only [List.cons_append, differsLater, differs_return, ih]

theorem afterBinary?_return (line : Line) :
    afterBinary? (line ++ ['\r']) = (afterBinary? line).map (· ++ ['\r']) := by
  unfold afterBinary?
  rw [Text.isPrefixOf?_concat (by decide)]
  cases "Binary file".toList.isPrefixOf? line with
  | none => rfl
  | some rest =>
    rcases rest with _ | ⟨c, _ | ⟨d, rest⟩⟩
    · rfl
    · by_cases hc : c = ' '
      · subst hc
        rfl
      · simp [hc]
    · by_cases hc : c = ' '
      · subst hc
        rfl
      · by_cases hs : c = 's' ∧ d = ' '
        · obtain ⟨rfl, rfl⟩ := hs
          rfl
        · simp_all

theorem isBinaryNotice_return (line : Line) :
    isBinaryNotice (line ++ ['\r']) = isBinaryNotice line := by
  unfold isBinaryNotice
  rw [afterBinary?_return]
  cases afterBinary? line with
  | none => rfl
  | some rest => exact differsLater_return rest

end Line

namespace Mark

theorem ofLine_return (line : Line) : ofLine (line ++ ['\r']) = ofLine line := by
  have hs (mark : List Char) (hm : '\r' ∉ mark) := Line.startsWith_return hm line
  unfold ofLine
  rw [hs ['\\'] (by decide), hs ['@', '@'] (by decide), hs ['d', 'i', 'f', 'f', ' '] (by decide),
    hs sourceMark (by decide), hs targetMark (by decide), Line.isBinaryNotice_return]

end Mark

namespace HunkSide

/-- A side of a hunk header ends before the carriage return. -/
theorem read_return (text : List Char) : read (text ++ ['\r']) =
    (read text).map fun (side, rest) => (side, rest ++ ['\r']) := by
  have hreturn : Text.isDigit '\r' = false := by decide
  have ht := Text.takeWhile_concat hreturn
  have hd := Text.dropWhile_concat hreturn
  unfold read
  rw [ht, hd]
  cases text.takeWhile Text.isDigit with
  | nil => rfl
  | cons e start =>
    cases text.dropWhile Text.isDigit with
    | nil => rfl
    | cons c rest =>
      by_cases hc : c = ','
      · subst hc
        simp only [List.cons_append, ht, hd]
        cases rest.takeWhile Text.isDigit <;> rfl
      · simp [hc]

end HunkSide

namespace HunkHeader

theorem ofLine?_return (line : Line) : ofLine? (line ++ ['\r']) = ofLine? line := by
  unfold ofLine?
  rw [Text.isPrefixOf?_concat (by decide)]
  cases ['@', '@', ' ', '-'].isPrefixOf? line with
  | none => rfl
  | some rest =>
    simp only [Option.map_some, Option.bind_eq_bind, Option.bind_some, HunkSide.read_return]
    cases HunkSide.read rest with
    | none => rfl
    | some side =>
      obtain ⟨old, rest⟩ := side
      simp only [Option.map_some, Option.bind_some]
      rw [Text.isPrefixOf?_concat (by decide)]
      cases [' ', '+'].isPrefixOf? rest with
      | none => rfl
      | some rest =>
        simp only [Option.map_some, Option.bind_some, HunkSide.read_return]
        cases HunkSide.read rest with
        | none => rfl
        | some side =>
          obtain ⟨new, rest⟩ := side
          simp only [Option.map_some, Option.bind_some]
          rw [Text.isPrefixOf?_concat (by decide)]
          cases [' ', '@', '@'].isPrefixOf? rest <;> rfl

end HunkHeader

namespace Line.EndsAlike

variable {line other : Line}

/-- What a carriage return at the end does not change is the same for both lines. -/
theorem congr {α : Type} {f : Line → α} (hf : ∀ line, f (line ++ ['\r']) = f line)
    (h : EndsAlike line other) : f other = f line := by
  rcases h.eq with rfl | rfl
  · rfl
  · exact hf line

end Line.EndsAlike

namespace Text

/-- The lines end alike one by one, and only those that are chosen differ. -/
inductive EndAlikeAt : (Nat → Bool) → List Line → List Line → Prop
  | nil (chosen : Nat → Bool) : EndAlikeAt chosen [] []
  | cons {chosen : Nat → Bool} {line other : Line} {lines others : List Line}
      (h : line.EndsAlike other) (hc : chosen 0 = false → other = line)
      (hrest : EndAlikeAt (fun n => chosen (n + 1)) lines others) :
      EndAlikeAt chosen (line :: lines) (other :: others)

theorem EndAlikeAt.endsAlike {chosen : Nat → Bool} {lines others : List Line}
    (h : EndAlikeAt chosen lines others) : List.Forall₂ Line.EndsAlike lines others := by
  induction h with
  | nil => exact .nil
  | cons h _ _ ih => exact .cons h ih

/-- A character in front goes to the first line, which ends as before. -/
theorem EndAlikeAt.prepend {chosen : Nat → Bool} {lines others : List Line}
    (h : EndAlikeAt chosen lines others) {c : Char} (hn : c ≠ '\n') (hr : c ≠ '\r') :
    EndAlikeAt chosen (prepend c lines) (prepend c others) := by
  cases h with
  | nil =>
    simp only [Text.prepend, if_neg hn]
    exact .cons ⟨by simpa using hr.symm, .inl rfl⟩ (fun _ => rfl) (.nil _)
  | cons hl hc hrest =>
    simp only [Text.prepend, if_neg hn]
    refine .cons ⟨by simpa [hr.symm] using hl.clean, ?_⟩ (fun h => by rw [hc h]) hrest
    rcases hl.eq with rfl | rfl
    · exact .inl rfl
    · exact .inr rfl

/-- The lines of the text with carriage returns are its lines, and each chosen one that a newline
ends has one at its end. -/
theorem endAlikeAt_lines_crlfAt {text : List Char} (h : '\r' ∉ text) (chosen : Nat → Bool) :
    EndAlikeAt chosen (lines text) (lines (crlfAt chosen text)) := by
  induction text generalizing chosen with
  | nil => exact .nil chosen
  | cons c text ih =>
    have hc : c ≠ '\r' := fun he => h (he ▸ List.mem_cons_self)
    have ht : '\r' ∉ text := fun hm => h (List.mem_cons_of_mem _ hm)
    by_cases hn : c = '\n'
    · subst hn
      rw [crlfAt_newline]
      cases h₀ : chosen 0 with
      | true => exact .cons ⟨by simp, .inr rfl⟩ (by simp [h₀]) (ih ht _)
      | false => exact .cons ⟨by simp, .inl rfl⟩ (fun _ => rfl) (ih ht _)
    · rw [crlfAt_cons_of_ne hn, lines_cons, lines_cons]
      exact (ih ht chosen).prepend hn hc

/-- The lines of the text with carriage returns are its lines, which end in one. -/
theorem endsAlike_lines_crlf {text : List Char} (h : '\r' ∉ text) :
    List.Forall₂ Line.EndsAlike (lines text) (lines (crlf text)) :=
  crlf_eq_crlfAt text ▸ (endAlikeAt_lines_crlfAt h _).endsAlike

end Text

end DiffReview
