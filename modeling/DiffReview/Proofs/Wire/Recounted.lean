import DiffReview.Proofs.Wire.Steady

/-!
# Totals that are sent along

The totals of a file are computed from its changes and never read. A request for an analysis may
send totals along, of any values: the files that are read are the same with them, with others and
without them.
-/

namespace DiffReview

open Json Wire

variable {α : Type} {fields : List (String × Json)}

/-- The names of the totals of a file. -/
def FileChange.totals : List String := ["additions", "deletions"]

namespace Json

/-- An object without the totals of a file. -/
def withoutTotals : Json → Json
  | .obj fields => .obj (fields.filter fun field => field.1 ∉ FileChange.totals)
  | v => v

/-- Two requests for an analysis whose files differ at most in totals. -/
inductive SameButTotals : Json → Json → Prop
  | files (front back : List (String × Json)) {vs ws : List Json}
      (h : List.Forall₂ (fun v w => v.withoutTotals = w.withoutTotals) vs ws) :
      SameButTotals (.obj (front ++ ("files", .arr vs) :: back))
        (.obj (front ++ ("files", .arr ws) :: back))

theorem field?_filter {p : String → Bool} {name : String} (h : p name)
    (fields : List (String × Json)) :
    field? (fields.filter fun field => p field.1) name = field? fields name := by
  induction fields with
  | nil => rfl
  | cons field fields ih =>
    obtain ⟨m, v⟩ := field
    by_cases hm : name = m
    · subst hm
      simp [h]
    · by_cases hp : p m <;> simp [hp, hm, ih]

end Json

namespace Wire

theorem required_eq_ok_iff {name : FieldName} {read : Json → Checked α} {a : α} :
    required fields name read = .ok a ↔
      ∃ field, name.find? fields = some field ∧ read field.2 = .ok a := by
  rw [required]
  cases name.find? fields <;> simp [Checked.under_eq_ok_iff]

/-- A field that is no total is found whether or not totals are given. -/
theorem find?_withoutTotals {name : FieldName} (hc : name.camel ∉ FileChange.totals)
    (hs : name.snake ∉ FileChange.totals) :
    name.find? (fields.filter fun field => field.1 ∉ FileChange.totals) = name.find? fields := by
  have hfield {m : String} (h : m ∉ FileChange.totals) :=
    field?_filter (p := fun m => m ∉ FileChange.totals) (by simpa using h) fields
  rw [FieldName.find?, hfield hc, hfield hs, FieldName.find?]

end Wire

/-- A file is read in the same way whether or not totals are given. -/
theorem FileChange.read_withoutTotals {v : Json} {file : FileChange} :
    read v.withoutTotals = .ok file ↔ read v = .ok file := by
  cases v with
  | obj fields =>
    simp only [withoutTotals, read, readObject, Checked.app_eq_ok_iff, Checked.map_eq_ok_iff,
      required_eq_ok_iff, withDefault]
    simp (disch := decide) only [find?_withoutTotals]
  | _ => rfl

/-- The files of a request are read in the same way whatever totals are sent along. -/
theorem readFiles_of_sameButTotals {v w : Json} (h : v.SameButTotals w) {files : List FileChange}
    (hv : readFiles v = .ok files) : readFiles w = .ok files := by
  obtain ⟨front, back, hvw⟩ := h
  obtain ⟨field, hfind, hread⟩ := required_eq_ok_iff.1 hv
  refine required_eq_ok_iff.2 ?_
  simp only [FieldName.find?, FieldName.plain, field?_append, field?_cons, if_true] at hfind ⊢
  cases hfront : field? front "files" with
  | some given =>
    -- a field of this name stands further in front, and counts
    rw [hfront] at hfind
    exact ⟨field, hfind, hread⟩
  | none =>
    rw [hfront] at hfind
    cases hfind
    have hfiles := readItems_eq_ok_iff.1 hread
    refine ⟨_, rfl, readItems_eq_ok_iff.2 ?_⟩
    refine (forall₂_trans hvw.flip hfiles).imp fun w file ⟨v, hvw, hv⟩ => ?_
    rw [← FileChange.read_withoutTotals, ← hvw]
    exact FileChange.read_withoutTotals.2 hv

end DiffReview
