import DiffReview.Proofs.Json.Tokens
import DiffReview.Proofs.Traversal
import Mathlib.Algebra.GroupWithZero.Nat

/-!
# Printed values

The indented layout of a value is read back, whatever the value is and whatever blanks stand before
it. The readers of values take a bound on nested calls; the length of what is printed is enough,
since each nested call leaves a bracket, a comma or the newline of a margin behind. What is printed
at all is the values that hold no integer with too many digits.
-/
namespace DiffReview.Json

theorem isSpace_of_mem_margin {level : Nat} {c : Char} (h : c ∈ margin level) :
    isSpace c = true := by
  rcases List.mem_cons.1 h with rfl | h
  · rfl
  · rw [List.eq_of_mem_replicate h]
    rfl

/-- A printed value begins with a character that is no blank and closes nothing. -/
theorem indented_eq_cons (level : Nat) (v : Json) :
    ∃ c cs, indented level v = c :: cs ∧ isSpace c = false ∧ c ≠ ']' ∧ c ≠ '}' := by
  have hnat (n : Nat) : ∃ c cs, natText n = c :: cs ∧ isSpace c = false ∧ c ≠ ']' ∧ c ≠ '}' := by
    obtain ⟨d, ds, hd, hdigit⟩ := natText_eq_cons n
    refine ⟨d, ds, hd, ?_, ?_, ?_⟩
    · by_contra hspace
      simp only [isSpace, Bool.or_eq_true, decide_eq_true_eq, Bool.not_eq_false] at hspace
      rcases hspace with ((rfl | rfl) | rfl) | rfl <;> cases hdigit
    · rintro rfl
      cases hdigit
    · rintro rfl
      cases hdigit
  cases v with
  | null => exact ⟨_, _, rfl, rfl, by decide, by decide⟩
  | bool b => cases b <;> exact ⟨_, _, rfl, rfl, by decide, by decide⟩
  | int n =>
    cases n with
    | ofNat n => exact hnat n
    | negSucc n => exact ⟨_, _, rfl, rfl, by decide, by decide⟩
  | float d =>
    obtain ⟨negative, digits, exponent⟩ := d
    cases negative with
    | true => exact ⟨_, _, rfl, rfl, by decide, by decide⟩
    | false =>
      obtain ⟨c, cs, hcs, h⟩ := hnat digits
      exact ⟨c, cs ++ 'e' :: intText exponent, by simp [indented, decimalText, hcs], h⟩
  | nonFinite x => cases x <;> exact ⟨_, _, rfl, rfl, by decide, by decide⟩
  | str s => exact ⟨_, _, rfl, rfl, by decide, by decide⟩
  | arr items => cases items <;> exact ⟨_, _, rfl, rfl, by decide, by decide⟩
  | obj fields => cases fields <;> exact ⟨_, _, rfl, rfl, by decide, by decide⟩

/-- Blanks in front of a value do not count. -/
theorem readValue_append {spaces : List Char} (hs : ∀ c ∈ spaces, isSpace c = true) (bound : Nat)
    (s : List Char) : readValue bound (spaces ++ s) = readValue bound s := by
  cases bound with
  | zero => rfl
  | succ bound => rw [readValue, readValue, List.dropWhile_append_of_pos hs]

theorem readItems_append {spaces : List Char} (hs : ∀ c ∈ spaces, isSpace c = true) (bound : Nat)
    (s : List Char) : readItems bound (spaces ++ s) = readItems bound s := by
  cases bound with
  | zero => rfl
  | succ bound => rw [readItems, readItems, readValue_append hs]

theorem readFields_append {spaces : List Char} (hs : ∀ c ∈ spaces, isSpace c = true) (bound : Nat)
    (s : List Char) : readFields bound (spaces ++ s) = readFields bound s := by
  cases bound with
  | zero => rfl
  | succ bound => rw [readFields, readFields, List.dropWhile_append_of_pos hs]

/-- What begins like a number is read as one. -/
theorem readValue_of_digit {bound : Nat} (sign : Bool) {d : Char} {s : List Char}
    (hd : d.isDigit = true) :
    readValue (bound + 1) ((if sign then ['-'] else []) ++ d :: s) =
      readNumber ((if sign then ['-'] else []) ++ d :: s) := by
  have hne : ∀ c : Char, c.isDigit = false → d ≠ c := by
    rintro c hc rfl
    simp [hd] at hc
  have hspace : isSpace d = false := by
    simp [isSpace, hne ' ' rfl, hne '\t' rfl, hne '\n' rfl, hne '\r' rfl]
  cases sign with
  | false =>
    simp [readValue, hspace, hne '"' rfl, hne '[' rfl, hne '\x7b' rfl, hne 'n' rfl, hne 't' rfl,
      hne 'f' rfl, hne 'I' rfl, hne '-' rfl, hne 'N' rfl]
  | true =>
    have hminus : isSpace '-' = false := rfl
    simp [readValue, hminus, hne 'I' rfl]

/-- An array with something in it is read item by item. -/
theorem readValue_array {bound : Nat} {spaces s : List Char} {c : Char}
    (hs : ∀ d ∈ spaces, isSpace d = true) (hc : isSpace c = false) (hne : c ≠ ']') :
    readValue (bound + 1) ('[' :: (spaces ++ c :: s)) =
      (readItems bound (spaces ++ c :: s)).map fun p => (.arr p.1, p.2) := by
  have hopen : isSpace '[' = false := rfl
  have hdrop : (spaces ++ c :: s).dropWhile isSpace = c :: s := by
    rw [List.dropWhile_append_of_pos hs, List.dropWhile_cons_of_neg (by simp [hc])]
  rw [readItems_append hs]
  simp [readValue, hopen, hdrop, hne]

/-- An object with something in it is read field by field. -/
theorem readValue_object {bound : Nat} {spaces s : List Char} {c : Char}
    (hs : ∀ d ∈ spaces, isSpace d = true) (hc : isSpace c = false) (hne : c ≠ '\x7d') :
    readValue (bound + 1) ('\x7b' :: (spaces ++ c :: s)) =
      (readFields bound (spaces ++ c :: s)).map fun p => (.obj p.1, p.2) := by
  have hopen : isSpace '\x7b' = false := rfl
  have hdrop : (spaces ++ c :: s).dropWhile isSpace = c :: s := by
    rw [List.dropWhile_append_of_pos hs, List.dropWhile_cons_of_neg (by simp [hc])]
  rw [readFields_append hs]
  simp [readValue, hopen, hdrop, hne]

theorem endsNumber_margin (level : Nat) (rest : List Char) :
    EndsNumber (margin level ++ rest) := by
  rintro c ⟨⟩
  decide

theorem endsNumber_comma (rest : List Char) : EndsNumber (',' :: rest) := by
  rintro c ⟨⟩
  decide

theorem dropWhile_margin {level : Nat} {c : Char} {rest : List Char} (hc : isSpace c = false) :
    (margin level ++ c :: rest).dropWhile isSpace = c :: rest := by
  rw [List.dropWhile_append_of_pos fun _ => isSpace_of_mem_margin,
    List.dropWhile_cons_of_neg (by simp [hc])]

/-- Behind a printed name comes a value, and behind that the brace or a comma and more fields. -/
theorem readFields_stringText {level bound : Nat} {name : String} {v : Json} {s after : List Char}
    (hvalue : readValue bound s = some (v, after)) :
    (∀ rest, after.dropWhile isSpace = '\x7d' :: rest →
      readFields (bound + 1) (margin level ++ (stringText name ++ ':' :: ' ' :: s)) =
        some ([(name, v)], rest)) ∧
    (∀ rest, after.dropWhile isSpace = ',' :: rest →
      readFields (bound + 1) (margin level ++ (stringText name ++ ':' :: ' ' :: s)) =
        (readFields bound rest).map fun p => ((name, v) :: p.1, p.2)) := by
  obtain ⟨text, htext, hread⟩ := stringText_append name (':' :: ' ' :: s)
  have hcolon : (':' :: ' ' :: s).dropWhile isSpace = ':' :: ' ' :: s := rfl
  have hblank : readValue bound (' ' :: s) = readValue bound s :=
    readValue_append (List.forall_mem_singleton.2 rfl) bound s
  rw [htext, readFields, dropWhile_margin rfl]
  constructor
  · intro rest hafter
    simp only [hread, hcolon, hblank, hvalue, hafter]
  · intro rest hafter
    simp only [hread, hcolon, hblank, hvalue, hafter]

mutual

/-- A printed value is read back from the front of any text that no number runs on into. -/
theorem readValue_indented : ∀ (v : Json) (level bound : Nat) (rest : List Char),
    (indented level v).length ≤ bound → EndsNumber rest →
      readValue bound (indented level v ++ rest) = some (v, rest)
  | v, level, 0, rest, hbound, _ => by
    obtain ⟨c, cs, hcs, -⟩ := indented_eq_cons level v
    simp [hcs] at hbound
  | .null, level, bound + 1, rest, _, _ => rfl
  | .bool true, level, bound + 1, rest, _, _ => rfl
  | .bool false, level, bound + 1, rest, _, _ => rfl
  | .int n, level, bound + 1, rest, _, hrest => by
    have hread := readNumber_intText n hrest
    rw [indented]
    cases n with
    | ofNat n =>
      obtain ⟨d, ds, hd, hdigit⟩ := natText_eq_cons n
      rw [intText, hd] at hread ⊢
      exact (readValue_of_digit false hdigit).trans hread
    | negSucc n =>
      obtain ⟨d, ds, hd, hdigit⟩ := natText_eq_cons (n + 1)
      rw [intText, hd] at hread ⊢
      exact (readValue_of_digit true hdigit).trans hread
  | .float x, level, bound + 1, rest, _, hrest => by
    have hread := readNumber_decimalText x hrest
    obtain ⟨d, ds, hd, hdigit⟩ := natText_eq_cons x.digits
    rw [indented]
    rw [decimalText, hd] at hread ⊢
    simp only [List.append_assoc, List.cons_append] at hread ⊢
    exact (readValue_of_digit x.negative hdigit).trans hread
  | .nonFinite x, level, bound + 1, rest, _, _ => by
    cases x <;> rfl
  | .str s, level, bound + 1, rest, _, _ => by
    obtain ⟨text, htext, hread⟩ := stringText_append s rest
    have hquote : isSpace '"' = false := rfl
    rw [indented, htext]
    simp [readValue, hquote, hread]
  | .arr [], level, bound + 1, rest, _, _ => rfl
  | .arr (v :: vs), level, bound + 1, rest, hbound, _ => by
    simp only [indented, List.length_append, List.length_cons] at hbound
    have hitems := readItems_indented (v :: vs) (List.cons_ne_nil v vs) (level + 1) level bound
      rest (by omega)
    obtain ⟨c, cs, hcs, hspace, hclose, -⟩ := indented_eq_cons (level + 1) v
    obtain ⟨tail, htail⟩ : ∃ tail, indentedItems (level + 1) (v :: vs) ++ margin level ++
        ']' :: rest = margin (level + 1) ++ c :: tail := by
      cases vs <;> simp [indentedItems, hcs]
    have htext : indented level (.arr (v :: vs)) ++ rest =
        '[' :: (margin (level + 1) ++ c :: tail) := by
      simp [← htail, indented]
    -- The reader of the items starts behind the blanks of the first margin, which do not count.
    rw [htext, readValue_array (fun _ => isSpace_of_mem_margin) hspace hclose, ← htail, hitems]
    rfl
  | .obj [], level, bound + 1, rest, _, _ => rfl
  | .obj ((name, v) :: fs), level, bound + 1, rest, hbound, _ => by
    simp only [indented, List.length_append, List.length_cons] at hbound
    have hfields := readFields_indented ((name, v) :: fs) (List.cons_ne_nil (name, v) fs)
      (level + 1) level bound rest (by omega)
    obtain ⟨tail, htail⟩ : ∃ tail, indentedFields (level + 1) ((name, v) :: fs) ++ margin level ++
        '\x7d' :: rest = margin (level + 1) ++ '"' :: tail := by
      cases fs <;> simp [indentedFields, stringText]
    have htext : indented level (.obj ((name, v) :: fs)) ++ rest =
        '\x7b' :: (margin (level + 1) ++ '"' :: tail) := by
      simp [← htail, indented]
    rw [htext, readValue_object (fun _ => isSpace_of_mem_margin) rfl (by decide), ← htail, hfields]
    rfl

/-- Printed items are read up to the bracket that closes them. -/
theorem readItems_indented : ∀ (items : List Json), items ≠ [] →
    ∀ (level close bound : Nat) (rest : List Char),
      (indentedItems level items).length ≤ bound →
        readItems bound (indentedItems level items ++ margin close ++ ']' :: rest) =
          some (items, rest)
  | [], hne, _, _, _, _, _ => absurd rfl hne
  | [v], _, level, close, 0, rest, hbound => by
    simp [indentedItems, margin] at hbound
  | v :: w :: vs, _, level, close, 0, rest, hbound => by
    simp [indentedItems, margin] at hbound
  | [v], _, level, close, bound + 1, rest, hbound => by
    simp only [indentedItems, margin, List.length_append, List.length_cons] at hbound
    have hvalue := readValue_indented v level bound (margin close ++ ']' :: rest) (by omega)
      (endsNumber_margin close (']' :: rest))
    have hdrop : (margin close ++ ']' :: rest).dropWhile isSpace = ']' :: rest :=
      dropWhile_margin rfl
    rw [indentedItems, List.append_assoc, List.append_assoc, readItems,
      readValue_append fun _ => isSpace_of_mem_margin, hvalue]
    simp only [hdrop]
  | v :: w :: vs, _, level, close, bound + 1, rest, hbound => by
    simp only [indentedItems, margin, List.length_append, List.length_cons] at hbound
    have hitems := readItems_indented (w :: vs) (List.cons_ne_nil w vs) level close bound rest
      (by omega)
    have hvalue := readValue_indented v level bound
      (',' :: (indentedItems level (w :: vs) ++ margin close ++ ']' :: rest)) (by omega)
      (endsNumber_comma _)
    have htext : indentedItems level (v :: w :: vs) ++ margin close ++ ']' :: rest =
        margin level ++ (indented level v ++
          ',' :: (indentedItems level (w :: vs) ++ margin close ++ ']' :: rest)) := by
      simp [indentedItems]
    have hdrop (s : List Char) : (',' :: s).dropWhile isSpace = ',' :: s := rfl
    rw [htext, readItems, readValue_append fun _ => isSpace_of_mem_margin, hvalue]
    simp only [hdrop, hitems, Option.map_some]

/-- Printed fields are read up to the brace that closes them. -/
theorem readFields_indented : ∀ (fields : List (String × Json)), fields ≠ [] →
    ∀ (level close bound : Nat) (rest : List Char),
      (indentedFields level fields).length ≤ bound →
        readFields bound (indentedFields level fields ++ margin close ++ '\x7d' :: rest) =
          some (fields, rest)
  | [], hne, _, _, _, _, _ => absurd rfl hne
  | [(name, v)], _, level, close, 0, rest, hbound => by
    simp [indentedFields, margin] at hbound
  | (name, v) :: g :: fs, _, level, close, 0, rest, hbound => by
    simp [indentedFields, margin] at hbound
  | [(name, v)], _, level, close, bound + 1, rest, hbound => by
    simp only [indentedFields, margin, List.length_append, List.length_cons] at hbound
    have hvalue := readValue_indented v level bound (margin close ++ '\x7d' :: rest) (by omega)
      (endsNumber_margin close ('\x7d' :: rest))
    have htext : indentedFields level [(name, v)] ++ margin close ++ '\x7d' :: rest =
        margin level ++ (stringText name ++ ':' :: ' ' ::
          (indented level v ++ (margin close ++ '\x7d' :: rest))) := by
      simp [indentedFields]
    rw [htext, (readFields_stringText hvalue).1 rest (dropWhile_margin rfl)]
  | (name, v) :: g :: fs, _, level, close, bound + 1, rest, hbound => by
    simp only [indentedFields, margin, List.length_append, List.length_cons] at hbound
    have hfields := readFields_indented (g :: fs) (List.cons_ne_nil g fs) level close bound rest
      (by omega)
    have hvalue := readValue_indented v level bound
      (',' :: (indentedFields level (g :: fs) ++ margin close ++ '\x7d' :: rest)) (by omega)
      (endsNumber_comma _)
    have htext : indentedFields level ((name, v) :: g :: fs) ++ margin close ++ '\x7d' :: rest =
        margin level ++ (stringText name ++ ':' :: ' ' :: (indented level v ++
          ',' :: (indentedFields level (g :: fs) ++ margin close ++ '\x7d' :: rest))) := by
      simp [indentedFields]
    rw [htext, (readFields_stringText hvalue).2 _ rfl, hfields]
    rfl

end

/-- The indented layout is read back, whatever blanks stand behind it. -/
theorem ofText?_indented (v : Json) {spaces : List Char}
    (hs : ∀ c ∈ spaces, isSpace c = true) : ofText? (indented 0 v ++ spaces) = some v := by
  have hends : EndsNumber spaces := by
    intro c hc
    have hspace := hs c (List.mem_of_mem_head? hc)
    simp only [isSpace, Bool.or_eq_true, decide_eq_true_eq] at hspace
    rcases hspace with ((rfl | rfl) | rfl) | rfl <;> decide
  have hread := readValue_indented v 0 (2 * (indented 0 v ++ spaces).length + 1) spaces
    (by rw [List.length_append]; omega) hends
  have hall : spaces.all isSpace = true := List.all_eq_true.2 hs
  simp only [ofText?, hread, hall, if_true]

/-! ## What can be printed -/

/-- Every integer in a value has at most 4300 digits. -/
def Printable (v : Json) : Prop := ∀ n ∈ v.integers, n.natAbs < 10 ^ Text.maxDigits

theorem isTooLong_eq_false_iff {n : Int} :
    isTooLong n = false ↔ n.natAbs < 10 ^ Text.maxDigits := by
  rw [isTooLong, decide_eq_false_iff_not, Nat.not_lt, natText]
  exact Nat.length_toDigits_le_iff (by decide) (by decide)

/-- A value is printed, in full, exactly if each of its integers can be. -/
theorem toIndentedText_eq_ok_iff {v : Json} {printed : String} :
    v.toIndentedText = .ok printed ↔ v.Printable ∧ printed = String.ofList (indented 0 v) := by
  rw [toIndentedText]
  cases h : v.integers.find? isTooLong with
  | none =>
    have hv : v.Printable := fun n hn =>
      isTooLong_eq_false_iff.1 (by simpa using List.find?_eq_none.1 h n hn)
    simp [hv, eq_comm]
  | some n =>
    have hv : ¬ v.Printable := fun hall => by
      have hfits := isTooLong_eq_false_iff.2 (hall n (List.mem_of_find?_eq_some h))
      rw [List.find?_some h] at hfits
      cases hfits
    simp [hv]

/-- Otherwise an integer is refused that is too long. -/
theorem toIndentedText_eq_error {v : Json} {e : NumberTooLong} (h : v.toIndentedText = .error e) :
    e.number ∈ v.integers ∧ 10 ^ Text.maxDigits ≤ e.number.natAbs := by
  rw [toIndentedText] at h
  split at h
  · rename_i n hn
    cases h
    have hlong := List.find?_some hn
    refine ⟨List.mem_of_find?_eq_some hn, Nat.not_lt.1 fun hlt => ?_⟩
    rw [isTooLong_eq_false_iff.2 hlt] at hlong
    cases hlong
  · cases h

theorem exists_printed_iff {v : Json} : (∃ printed, v.toIndentedText = .ok printed) ↔ v.Printable :=
  ⟨fun ⟨_, h⟩ => (toIndentedText_eq_ok_iff.1 h).1,
    fun h => ⟨_, toIndentedText_eq_ok_iff.2 ⟨h, rfl⟩⟩⟩

/-- What is printed of a value is read as that value. -/
theorem ofText?_printed {v : Json} {printed : String} (h : v.toIndentedText = .ok printed)
    {spaces : List Char} (hs : ∀ c ∈ spaces, isSpace c = true) :
    ofText? (printed.toList ++ spaces) = some v := by
  rw [(toIndentedText_eq_ok_iff.1 h).2, String.toList_ofList]
  exact ofText?_indented v hs

/-- Different values are printed differently. -/
theorem eq_of_printed {v w : Json} {printed : String} (hv : v.toIndentedText = .ok printed)
    (hw : w.toIndentedText = .ok printed) : v = w := by
  have hread := ofText?_printed hv (List.forall_mem_nil _)
  rw [ofText?_printed hw (List.forall_mem_nil _)] at hread
  exact (Option.some.inj hread).symm

end DiffReview.Json
