import DiffReview.Json.Printer
import DiffReview.Json.Reader
import Mathlib.Data.List.TakeWhile

/-!
# Printed strings and numbers

A printed string or number is read back from the front of any text. A string ends with its quote; a
number has to be followed by something that it does not run on into.
-/
namespace DiffReview.Json

/-! ## Strings -/

/-- Only the quote, the backslash and the characters below the space are escaped. -/
theorem escaped_eq_iff {c : Char} : escaped c = [c] ↔ c ≠ '"' ∧ c ≠ '\\' ∧ 0x20 ≤ c.toNat := by
  constructor
  · intro h
    refine ⟨?_, ?_, ?_⟩
    · rintro rfl
      cases h
    · rintro rfl
      cases h
    · by_contra hlow
      unfold escaped at h
      split_ifs at h <;> simp_all
  · rintro ⟨hquote, hback, hlow⟩
    have hne : ∀ d : Char, d.toNat < 0x20 → c ≠ d := by
      rintro d hd rfl
      omega
    simp [escaped, hquote, hback, hne '\n' (by decide), hne '\r' (by decide),
      hne '\t' (by decide), hne '\x08' (by decide), hne '\x0c' (by decide), hlow]

/-- Characters below the space that have no short escape are written by their number. -/
theorem hexUnit?_hex : ∀ n < 0x20,
    Text.hex 4 n = ['0', '0', Nat.digitChar (n / 16), Nat.digitChar (n % 16)] ∧
      hexUnit? '0' '0' (Nat.digitChar (n / 16)) (Nat.digitChar (n % 16)) = some n := by
  decide

/-- A character is read from what it is printed as. -/
theorem readString_escaped (taken : List Char) (c : Char) (rest : List Char) :
    readString none taken (escaped c ++ rest) = readString none (c :: taken) rest := by
  unfold escaped
  split_ifs with hquote hn hr ht hb hf hlow
  · rcases (by simpa using hquote : c = '"' ∨ c = '\\') with rfl | rfl <;> rfl
  · subst hn
    rfl
  · subst hr
    rfl
  · subst ht
    rfl
  · subst hb
    rfl
  · subst hf
    rfl
  · obtain ⟨hhex, hunit⟩ := hexUnit?_hex c.toNat hlow
    have hhigh : ¬ (0xD800 ≤ c.toNat ∧ c.toNat < 0xDC00) := by omega
    have hother : ¬ (0xDC00 ≤ c.toNat ∧ c.toNat < 0xE000) := by omega
    rw [hhex, readString.eq_def]
    simp only [List.cons_append, List.nil_append, hunit, if_neg hhigh, if_neg hother,
      Char.ofNat_toNat]
  · simp only [Bool.or_eq_true, decide_eq_true_eq, not_or] at hquote
    rw [List.singleton_append, readString.eq_def]
    split <;> simp_all [Nat.not_lt.2]

/-- A string is read from its printed characters and the quote behind them. -/
theorem readString_flatMap_escaped (cs : List Char) (rest taken : List Char) :
    readString none taken (cs.flatMap escaped ++ '"' :: rest) =
      some (String.ofList (taken.reverse ++ cs), rest) := by
  induction cs generalizing taken with
  | nil => simp [readString]
  | cons c cs ih =>
    rw [List.flatMap_cons, List.append_assoc, readString_escaped, ih, List.reverse_cons,
      List.append_assoc, List.singleton_append]

/-- A printed string is its quote and what a string is read from. -/
theorem stringText_append (s : String) (rest : List Char) :
    ∃ text, stringText s ++ rest = '"' :: text ∧ readString none [] text = some (s, rest) := by
  refine ⟨s.toList.flatMap escaped ++ '"' :: rest, by simp [stringText], ?_⟩
  rw [readString_flatMap_escaped, List.reverse_nil, List.nil_append, String.ofList_toList]

/-! ## Numbers -/

/-- A text that no number runs on into. -/
def EndsNumber (rest : List Char) : Prop :=
  ∀ c ∈ rest.head?, c.isDigit = false ∧ c ≠ '.' ∧ c ≠ 'e' ∧ c ≠ 'E'

theorem digitsValue_natText (n : Nat) : digitsValue (natText n) = n :=
  Nat.ofDigitChars_ten_toDigits

/-- Only zero is printed with a zero in front. -/
theorem eq_zero_of_head?_natText {n : Nat} (h : (natText n).head? = some '0') : n = 0 := by
  induction n using Nat.strongRecOn with
  | ind n ih =>
    rw [natText, Nat.toDigits_eq_if (by decide)] at h
    split at h
    · simpa using h
    · rename_i hn
      have hfront : (natText (n / 10)).head? = some '0' := by
        rwa [List.head?_append, Option.or_of_isSome (by simp [Nat.toDigits_ne_nil])] at h
      have hzero := ih (n / 10) (by omega) hfront
      omega

/-- A printed number begins with a digit. -/
theorem natText_eq_cons (n : Nat) : ∃ d ds, natText n = d :: ds ∧ d.isDigit = true := by
  cases h : natText n with
  | nil => exact absurd h Nat.toDigits_ne_nil
  | cons d ds =>
    have hd : d ∈ natText n := h ▸ List.mem_cons_self
    exact ⟨d, ds, rfl, Nat.isDigit_of_mem_toDigits (by decide) (by decide) hd⟩

/-- A leading zero stands alone in what is printed. -/
theorem natText_leading_zero (n : Nat) :
    ((natText n).head? = some '0' && (natText n).length ≠ 1) = false := by
  by_cases h : (natText n).head? = some '0'
  · obtain rfl := eq_zero_of_head?_natText h
    rfl
  · simp [h]

theorem readDigits_natText (n : Nat) {rest : List Char}
    (h : ∀ c ∈ rest.head?, c.isDigit = false) :
    readDigits (natText n ++ rest) = (natText n, rest) := by
  have ha : ∀ c ∈ natText n, c.isDigit = true := fun c hc =>
    Nat.isDigit_of_mem_toDigits (by decide) (by decide) hc
  rw [readDigits, List.takeWhile_append_of_pos ha, List.dropWhile_append_of_pos ha]
  cases rest with
  | nil => simp
  | cons c rest =>
    have hc : ¬ c.isDigit = true := by simp [h c rfl]
    rw [List.takeWhile_cons_of_neg hc, List.dropWhile_cons_of_neg hc, List.append_nil]

theorem readFraction_of_ne {rest : List Char} (h : rest.head? ≠ some '.') :
    readFraction rest = some (none, rest) := by
  unfold readFraction
  split <;> simp_all

theorem readExponent_of_ne {rest : List Char} (h : ∀ c ∈ rest.head?, c ≠ 'e' ∧ c ≠ 'E') :
    readExponent rest = some (none, rest) := by
  unfold readExponent
  split <;> simp_all

/-- The exponent of a printed decimal is read back. -/
theorem readExponent_intText (x : Int) {rest : List Char}
    (h : ∀ c ∈ rest.head?, c.isDigit = false) :
    readExponent ('e' :: intText x ++ rest) = some (some x, rest) := by
  cases x with
  | ofNat n =>
    obtain ⟨d, ds, hd, hdigit⟩ := natText_eq_cons n
    have hread := readDigits_natText n h
    have hminus : d ≠ '-' := by
      rintro rfl
      cases hdigit
    have hplus : d ≠ '+' := by
      rintro rfl
      cases hdigit
    have hvalue := digitsValue_natText n
    rw [hd] at hread hvalue
    rw [intText, hd]
    simp_all [readExponent]
  | negSucc n =>
    obtain ⟨d, ds, hd, -⟩ := natText_eq_cons (n + 1)
    have hread := readDigits_natText (n + 1) h
    have hvalue := digitsValue_natText (n + 1)
    rw [hd] at hread hvalue
    rw [intText, hd]
    simp_all [readExponent, Int.negSucc_eq]

/-- A number is read sign, digits, fraction and exponent in turn. -/
theorem readNumber_natText (negative : Bool) (n : Nat) {rest : List Char}
    (h : ∀ c ∈ rest.head?, c.isDigit = false) {exponent : Option Int} {after : List Char}
    (hfraction : readFraction rest = some (none, rest))
    (hexponent : readExponent rest = some (exponent, after)) :
    readNumber ((if negative then ['-'] else []) ++ natText n ++ rest) =
      some (match exponent with
        | none => .int (if negative then -n else n)
        | some x => .float ⟨negative, n, x⟩, after) := by
  obtain ⟨d, ds, hd, hdigit⟩ := natText_eq_cons n
  have hread := readDigits_natText n h
  have hzero := natText_leading_zero n
  have hvalue := digitsValue_natText n
  have hminus : d ≠ '-' := by
    rintro rfl
    cases hdigit
  rw [hd] at hread hzero hvalue ⊢
  cases negative <;> cases exponent <;> simp_all [readNumber]

theorem readNumber_intText (n : Int) {rest : List Char} (h : EndsNumber rest) :
    readNumber (intText n ++ rest) = some (.int n, rest) := by
  have hdigit : ∀ c ∈ rest.head?, c.isDigit = false := fun c hc => (h c hc).1
  have hfraction : readFraction rest = some (none, rest) :=
    readFraction_of_ne fun hc => (h _ hc).2.1 rfl
  have hexponent : readExponent rest = some (none, rest) :=
    readExponent_of_ne fun c hc => (h c hc).2.2
  cases n with
  | ofNat n => exact readNumber_natText false n hdigit hfraction hexponent
  | negSucc n => exact readNumber_natText true (n + 1) hdigit hfraction hexponent

theorem readNumber_decimalText (d : Decimal) {rest : List Char} (h : EndsNumber rest) :
    readNumber (decimalText d ++ rest) = some (.float d, rest) := by
  have hdigit : ∀ c ∈ rest.head?, c.isDigit = false := fun c hc => (h c hc).1
  have he : ∀ c ∈ ('e' :: intText d.exponent ++ rest).head?, c.isDigit = false := by
    rintro c ⟨⟩
    rfl
  have hread := readNumber_natText d.negative d.digits he (readFraction_of_ne (by simp))
    (readExponent_intText d.exponent hdigit)
  rwa [← List.append_assoc] at hread

end DiffReview.Json
