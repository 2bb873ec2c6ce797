import DiffReview.Proofs.Wire.Alike
import DiffReview.Wire.Decode

/-!
# Reading up to the order of fields

A reader is steady when a value that is like one it reads is read alike. The scalar readers are,
because a scalar is only like itself, and the readers of lists and of objects are when those of
their parts are. So the readers of all records are steady.
-/

namespace DiffReview

open Json Wire

variable {α β : Type}

/-- Values that are alike are read as the same, as far as they are read. -/
def Steady (read : Json → Checked α) : Prop :=
  ∀ ⦃v w : Json⦄ ⦃a : α⦄, v.Alike w → read w = .ok a → read v = .ok a

/-- Objects that are alike are read as the same, as far as they are read. -/
def SteadyFields (read : List (String × Json) → Checked α) : Prop :=
  ∀ ⦃fs gs : List (String × Json)⦄ ⦃a : α⦄, AlikeFields fs gs → read gs = .ok a → read fs = .ok a

theorem Checked.map_eq_ok_iff {f : α → β} {x : Checked α} {b : β} :
    x.map f = .ok b ↔ ∃ a, x = .ok a ∧ f a = b := by
  cases x <;> simp [Checked.map]

theorem Checked.under_eq_ok_iff {x : Checked α} {step : Step} {a : α} :
    x.under step = .ok a ↔ x = .ok a := by
  cases x <;> simp [Checked.under]

/-- Items are read when each of them is. -/
theorem Wire.readItems_eq_ok_iff {read : Json → Checked α} {i : Nat} {vs : List Json}
    {as : List α} :
    readItems read i vs = .ok as ↔ List.Forall₂ (fun v a => read v = .ok a) vs as := by
  induction vs generalizing i as with
  | nil => simp [readItems, eq_comm]
  | cons v vs ih =>
    simp only [readItems, Checked.app_eq_ok_iff, Checked.map_eq_ok_iff, Checked.under_eq_ok_iff,
      ih, List.forall₂_cons_left_iff]
    constructor
    · rintro ⟨_, as, ⟨a, ha, rfl⟩, has, rfl⟩
      exact ⟨a, as, ha, has, rfl⟩
    · rintro ⟨a, as, ha, has, rfl⟩
      exact ⟨_, as, ⟨a, ha, rfl⟩, has, rfl⟩

namespace Steady

/-- A reader that reads neither arrays nor objects. -/
theorem of_scalar {read : Json → Checked α} (harr : ∀ vs a, read (.arr vs) ≠ .ok a)
    (hobj : ∀ fs a, read (.obj fs) ≠ .ok a) : Steady read := by
  intro v w a h hw
  cases h with
  | arr => exact absurd hw (harr _ a)
  | obj => exact absurd hw (hobj _ a)
  | _ => exact hw

theorem readString : Steady readString := .of_scalar (by simp [Wire.readString])
  (by simp [Wire.readString])

theorem readOptionalString : Steady readOptionalString :=
  .of_scalar (by simp [Wire.readOptionalString]) (by simp [Wire.readOptionalString])

theorem readMember (all : List α) (nameOf : α → String) : Steady (readMember all nameOf) :=
  .of_scalar (by simp [Wire.readMember]) (by simp [Wire.readMember])

theorem readBool : Steady readBool :=
  .of_scalar (by simp [Wire.readBool]) (by simp [Wire.readBool])

theorem readLineNumber : Steady readLineNumber :=
  .of_scalar (by simp [Wire.readLineNumber, readInt]) (by simp [Wire.readLineNumber, readInt])

theorem readList {read : Json → Checked α} (h : Steady read) : Steady (readList read) := by
  intro v w as hvw hw
  cases hvw with
  | arr hvw =>
    have hread := forall₂_trans hvw (readItems_eq_ok_iff.1 hw)
    exact readItems_eq_ok_iff.2 (hread.imp fun v a ⟨w, hvw, hw⟩ => h hvw hw)
  | obj => simp [Wire.readList] at hw
  | _ => exact hw

theorem readObject {read : List (String × Json) → Checked α} (h : SteadyFields read)
    (model : String) : Steady (readObject model read) := by
  intro v w a hvw hw
  cases hvw with
  | obj hvw => exact h hvw hw
  | arr => simp [Wire.readObject] at hw
  | _ => exact hw

end Steady

namespace SteadyFields

theorem map {read : List (String × Json) → Checked α} (h : SteadyFields read) (f : α → β) :
    SteadyFields fun fields => (read fields).map f := by
  intro fs gs b hfg hg
  obtain ⟨a, ha, rfl⟩ := Checked.map_eq_ok_iff.1 hg
  exact Checked.map_eq_ok_iff.2 ⟨a, h hfg ha, rfl⟩

theorem app {read : List (String × Json) → Checked (α → β)}
    {argument : List (String × Json) → Checked α} (h : SteadyFields read)
    (h' : SteadyFields argument) :
    SteadyFields fun fields => (read fields).app (argument fields) := by
  intro fs gs b hfg hg
  obtain ⟨f, a, hf, ha, rfl⟩ := Checked.app_eq_ok_iff.1 hg
  exact Checked.app_eq_ok_iff.2 ⟨f, a, h hfg hf, h' hfg ha, rfl⟩

/-- Objects that are alike give a field under the same name, and alike. -/
theorem rel_find? {fs gs : List (String × Json)} (h : AlikeFields fs gs) (name : FieldName) :
    Option.Rel (fun f g => f.1 = g.1 ∧ f.2.Alike g.2) (name.find? fs) (name.find? gs) := by
  have hc := h name.camel
  have hs := h name.snake
  unfold FieldName.find?
  generalize field? fs name.camel = vc at hc
  generalize field? gs name.camel = wc at hc
  generalize field? fs name.snake = vs at hs
  generalize field? gs name.snake = ws at hs
  cases hc with
  | some hvw => exact .some ⟨rfl, hvw⟩
  | none =>
    cases hs with
    | some hvw => exact .some ⟨rfl, hvw⟩
    | none => exact .none

theorem required {read : Json → Checked α} (h : Steady read) (name : FieldName) :
    SteadyFields fun fields => required fields name read := by
  intro fs gs a hfg hg
  have hr := rel_find? hfg name
  simp only [Wire.required] at hg ⊢
  generalize name.find? fs = f at hr ⊢
  generalize name.find? gs = g at hr hg
  cases hr with
  | some hvw => exact Checked.under_eq_ok_iff.2 (h hvw.2 (Checked.under_eq_ok_iff.1 hg))
  | none => simp at hg

theorem withDefault {read : Json → Checked α} (h : Steady read) (name : FieldName) (absent : α) :
    SteadyFields fun fields => withDefault fields name absent read := by
  intro fs gs a hfg hg
  have hr := rel_find? hfg name
  simp only [Wire.withDefault] at hg ⊢
  generalize name.find? fs = f at hr ⊢
  generalize name.find? gs = g at hr hg
  cases hr with
  | some hvw => exact Checked.under_eq_ok_iff.2 (h hvw.2 (Checked.under_eq_ok_iff.1 hg))
  | none => exact hg

end SteadyFields

open SteadyFields

theorem Change.steady_read : Steady Change.read :=
  .readObject (.app (.app (.map (required (.readMember _ _) _) _) (required .readString _))
    (withDefault .readLineNumber _ _)) _

theorem FileChange.steady_read : Steady FileChange.read :=
  .readObject (.app (.app (.app (.app (.app (.map (required .readString _) _)
    (withDefault .readOptionalString _ _)) (withDefault (.readMember _ _) _ _))
    (withDefault .readString _ _)) (withDefault .readBool _ _))
    (withDefault Change.steady_read.readList _ _)) _

theorem Finding.steady_read : Steady Finding.read :=
  .readObject (.app (.app (.app (.app (.map (required .readString _) _)
    (withDefault .readLineNumber _ _)) (required (.readMember _ _) _)) (required .readString _))
    (required (.readMember _ _) _)) _

theorem Analysis.steady_read : Steady Analysis.read :=
  .readObject (.app (.map (withDefault Finding.steady_read.readList _ _) _)
    (withDefault Steady.readString.readList _ _)) _

theorem ParsedDiff.steady_read : Steady ParsedDiff.read :=
  .readObject (.map (withDefault FileChange.steady_read.readList _ _) _) _

theorem Review.steady_read : Steady Review.read :=
  .readObject (.app (.map (required ParsedDiff.steady_read _) _)
    (required Analysis.steady_read _)) _

end DiffReview
