import DiffReview.Proofs.Wire.Alike
import DiffReview.Wire.Contract

/-!
# Accepted values, part by part

What a schema of objects accepts is told field by field, so that a proof about one record names
the fields that it needs. Acceptance does not depend on the order of fields, as long as only
strings are asked to be distinct.
-/

namespace DiffReview.Schema

open Json

theorem accepts_oneOf_iff {options : List String} {v : Json} :
    accepts (.oneOf options) v ↔ ∃ s ∈ options, v = .str s := by
  cases v <;> simp [accepts]

theorem accepts_string_iff {v : Json} : accepts .string v ↔ ∃ s, v = .str s := by
  cases v <;> simp [accepts]

theorem accepts_boolean_iff {v : Json} : accepts .boolean v ↔ ∃ b, v = .bool b := by
  cases v <;> simp [accepts]

theorem exists_int_of_accepts {minimum : Int} {v : Json} (hv : v.isIntegral)
    (h : accepts (.integer minimum) v) : ∃ n, v = .int n ∧ minimum ≤ n := by
  cases v with
  | int n => exact ⟨n, rfl, by simpa [accepts] using h⟩
  | float d => simp [isIntegral] at hv
  | _ => simp [accepts] at h

theorem accepts_array_iff {schema : Schema} {distinct : Bool} {v : Json} :
    accepts (.array schema distinct) v ↔
      ∃ vs, v = .arr vs ∧ (∀ w ∈ vs, accepts schema w) ∧ (distinct → vs.Nodup) := by
  cases v <;> cases distinct <;> simp [accepts]

theorem acceptsFields_iff {properties : List (String × Schema)} {fs : List (String × Json)} :
    acceptsFields properties fs ↔
      ∀ p ∈ properties, ∀ v, field? fs p.1 = some v → accepts p.2 v := by
  induction properties with
  | nil => simp [acceptsFields]
  | cons p rest ih =>
    obtain ⟨name, schema⟩ := p
    simp only [acceptsFields, Bool.and_eq_true, ih, List.forall_mem_cons]
    cases field? fs name <;> simp

/-- The fields of an object are those of a schema, and have the forms that it gives them. -/
structure Fits (properties : List (String × Schema)) (required : List String)
    (fs : List (String × Json)) : Prop where
  given : ∀ name ∈ required, (field? fs name).isSome
  known : ∀ name, (field? fs name).isSome → (properties.lookup name).isSome
  forms : ∀ p ∈ properties, ∀ v, field? fs p.1 = some v → accepts p.2 v

theorem accepts_object_iff {properties : List (String × Schema)} {required : List String}
    {v : Json} :
    accepts (.object properties required) v ↔ ∃ fs, v = .obj fs ∧ Fits properties required fs := by
  cases v with
  | obj fs =>
    have hknown : (∀ f ∈ fs, (properties.lookup f.1).isSome) ↔
        ∀ name, (field? fs name).isSome → (properties.lookup name).isSome := by
      constructor
      · intro h name hname
        obtain ⟨v, hv⟩ := Option.isSome_iff_exists.1 hname
        exact h _ (mem_of_field?_eq_some hv)
      · exact fun h f hf => h f.1 (isSome_field?_of_mem hf)
    simp only [accepts, Bool.and_eq_true, List.all_eq_true, acceptsFields_iff, hknown,
      Json.obj.injEq, exists_eq_left']
    exact ⟨fun ⟨⟨hg, hk⟩, hf⟩ => ⟨hg, hk, hf⟩, fun h => ⟨⟨h.given, h.known⟩, h.forms⟩⟩
  | _ => simp [accepts]

/-- An object is accepted by what its fields are, one after the other. -/
theorem accepts_obj {properties : List (String × Schema)} {required : List String}
    {fs : List (String × Json)} (hg : ∀ name ∈ required, (field? fs name).isSome)
    (hk : ∀ f ∈ fs, f.1 ∈ properties.map (·.1))
    (hf : ∀ p ∈ properties, ∀ v, field? fs p.1 = some v → accepts p.2 v) :
    accepts (.object properties required) (.obj fs) := by
  refine accepts_object_iff.2 ⟨fs, rfl, hg, fun name hname => ?_, hf⟩
  obtain ⟨v, hv⟩ := Option.isSome_iff_exists.1 hname
  simpa [List.lookup_isSome_iff] using hk _ (mem_of_field?_eq_some hv)

/-- Objects of one schema are alike when the fields of the schema are. -/
theorem alike_of_accepts {properties : List (String × Schema)} {required : List String}
    {v w : Json} (hv : accepts (.object properties required) v)
    (hw : accepts (.object properties required) w)
    (h : ∀ p ∈ properties, Option.Rel Alike (v.get? p.1) (w.get? p.1)) : v.Alike w := by
  obtain ⟨fs, rfl, hf⟩ := accepts_object_iff.1 hv
  obtain ⟨gs, rfl, hg⟩ := accepts_object_iff.1 hw
  refine .obj fun name => ?_
  cases hp : properties.lookup name with
  | some schema => exact h (name, schema) (mem_of_lookup_eq_some hp)
  | none =>
    have hnone : ∀ {es}, Fits properties required es → field? es name = none := fun he => by
      simpa [hp] using he.known name
    rw [hnone hf, hnone hg]
    exact .none

namespace Fits

variable {properties : List (String × Schema)} {required : List String}
  {fs : List (String × Json)}

/-- A field that must be given has the form that the schema gives it. -/
theorem exists_given (h : Fits properties required fs) (name : String) (schema : Schema)
    (hr : name ∈ required) (hp : (name, schema) ∈ properties) :
    ∃ v, field? fs name = some v ∧ accepts schema v := by
  obtain ⟨v, hv⟩ := Option.isSome_iff_exists.1 (h.given name hr)
  exact ⟨v, hv, h.forms _ hp v hv⟩

theorem exists_text (h : Fits properties required fs) (name : String) (hr : name ∈ required)
    (hp : (name, .string) ∈ properties) : ∃ s, field? fs name = some (.str s) := by
  obtain ⟨v, hv, ha⟩ := h.exists_given name _ hr hp
  obtain ⟨s, rfl⟩ := accepts_string_iff.1 ha
  exact ⟨s, hv⟩

theorem exists_truth (h : Fits properties required fs) (name : String) (hr : name ∈ required)
    (hp : (name, .boolean) ∈ properties) : ∃ b, field? fs name = some (.bool b) := by
  obtain ⟨v, hv, ha⟩ := h.exists_given name _ hr hp
  obtain ⟨b, rfl⟩ := accepts_boolean_iff.1 ha
  exact ⟨b, hv⟩

/-- A field whose options are the names of members gives one of these names. -/
theorem exists_member (h : Fits properties required fs) (name : String) {α : Type} (all : List α)
    (nameOf : α → String) (hr : name ∈ required)
    (hp : (name, .oneOf (all.map nameOf)) ∈ properties) :
    ∃ a, field? fs name = some (.str (nameOf a)) := by
  obtain ⟨v, hv, ha⟩ := h.exists_given name _ hr hp
  obtain ⟨s, hs, rfl⟩ := accepts_oneOf_iff.1 ha
  obtain ⟨a, -, rfl⟩ := List.mem_map.1 hs
  exact ⟨a, hv⟩

theorem exists_optional_text (h : Fits properties required fs) (name : String)
    (hp : (name, .string) ∈ properties) :
    ∃ s : Option String, field? fs name = s.map .str := by
  cases hv : field? fs name with
  | none => exact ⟨none, rfl⟩
  | some v =>
    obtain ⟨s, rfl⟩ := accepts_string_iff.1 (h.forms _ hp v hv)
    exact ⟨some s, rfl⟩

/-- A field that may give a positive integer. -/
theorem exists_optional_positive (h : Fits properties required fs)
    (hfs : isIntegral (.obj fs)) (name : String) (hp : (name, .integer 1) ∈ properties) :
    ∃ n : Option { n : Nat // 0 < n }, field? fs name = n.map fun n => .nat n.val := by
  cases hv : field? fs name with
  | none => exact ⟨none, rfl⟩
  | some v =>
    obtain ⟨n, rfl, hn⟩ :=
      exists_int_of_accepts (isIntegral_of_field? hfs hv) (h.forms _ hp v hv)
    refine ⟨some ⟨n.toNat, by omega⟩, ?_⟩
    simp only [Option.map_some, Json.nat, Option.some.injEq, Json.int.injEq]
    omega

/-- A field that must give an array gives one of accepted items. -/
theorem exists_array (h : Fits properties required fs) (hfs : isIntegral (.obj fs))
    (name : String) (items : Schema) (distinct : Bool) (hr : name ∈ required)
    (hp : (name, .array items distinct) ∈ properties) :
    ∃ vs, field? fs name = some (.arr vs) ∧ (∀ v ∈ vs, v.isIntegral ∧ accepts items v) ∧
      (distinct → vs.Nodup) := by
  obtain ⟨v, hv, ha⟩ := h.exists_given name _ hr hp
  obtain ⟨vs, rfl, hvs, hd⟩ := accepts_array_iff.1 ha
  have hint := isIntegral_of_field? hfs hv
  exact ⟨vs, hv, fun w hw => ⟨isIntegral_arr_iff.1 hint w hw, hvs w hw⟩, hd⟩

end Fits

mutual

/-- Only strings are asked to be distinct. Objects could be alike without being equal. -/
def comparesStrings : Schema → Bool
  | .array .string _ => true
  | .array items distinct => !distinct && comparesStrings items
  | .object properties _ => propertiesCompareStrings properties
  | _ => true

def propertiesCompareStrings : List (String × Schema) → Bool
  | [] => true
  | (_, schema) :: rest => comparesStrings schema && propertiesCompareStrings rest

end

/-- Strings are alike only when they are equal. -/
theorem eq_of_alike_of_accepts_string {vs ws : List Json} (h : List.Forall₂ Alike vs ws)
    (hw : ∀ w ∈ ws, accepts .string w) : vs = ws := by
  induction h with
  | nil => rfl
  | @cons v w vs ws hvw _ ih =>
    rw [List.forall_mem_cons] at hw
    obtain ⟨s, rfl⟩ := accepts_string_iff.1 hw.1
    rw [alike_str_iff.1 hvw, ih hw.2]

mutual

/-- What is like an accepted value is accepted. -/
theorem accepts_of_alike : ∀ {schema : Schema} {v w : Json}, schema.comparesStrings → v.Alike w →
    accepts schema w → accepts schema v
  | .oneOf _, v, w, _, h, hw => by
    obtain ⟨s, hs, rfl⟩ := accepts_oneOf_iff.1 hw
    exact accepts_oneOf_iff.2 ⟨s, hs, alike_str_iff.1 h⟩
  | .string, v, w, _, h, hw => by
    obtain ⟨s, rfl⟩ := accepts_string_iff.1 hw
    exact accepts_string_iff.2 ⟨s, alike_str_iff.1 h⟩
  | .boolean, v, w, _, h, hw => by
    obtain ⟨b, rfl⟩ := accepts_boolean_iff.1 hw
    cases h
    exact hw
  | .integer _, v, w, _, h, hw => by
    cases h with
    | int n => exact hw
    | float d => exact hw
    | _ => simp [accepts] at hw
  | .array items distinct, v, w, hs, h, hw => by
    obtain ⟨ws, rfl, hws, hd⟩ := accepts_array_iff.1 hw
    cases h with
    | @arr vs _ h =>
      by_cases hstring : items = .string
      · subst hstring
        rwa [eq_of_alike_of_accepts_string h hws]
      · have hi : items.comparesStrings ∧ distinct = false := by
          cases items <;> simp_all [comparesStrings]
        refine accepts_array_iff.2 ⟨vs, rfl, fun v hv => ?_, by simp [hi.2]⟩
        obtain ⟨w, hw, hvw⟩ := exists_of_forall₂_of_mem h hv
        exact accepts_of_alike hi.1 hvw (hws w hw)
  | .object properties required, v, w, hs, h, hw => by
    obtain ⟨gs, rfl, hg⟩ := accepts_object_iff.1 hw
    cases h with
    | @obj fs _ h =>
      have h : AlikeFields fs gs := h
      refine accepts_object_iff.2 ⟨fs, rfl, ⟨fun name hn => ?_, fun name hn => ?_, ?_⟩⟩
      · exact (h.isSome_iff name).2 (hg.given name hn)
      · exact hg.known name ((h.isSome_iff name).1 hn)
      · exact acceptsFields_of_alike (by simpa [comparesStrings] using hs) h hg.forms

theorem acceptsFields_of_alike : ∀ {properties : List (String × Schema)}
    {fs gs : List (String × Json)}, propertiesCompareStrings properties → AlikeFields fs gs →
    (∀ p ∈ properties, ∀ v, field? gs p.1 = some v → accepts p.2 v) →
    ∀ p ∈ properties, ∀ v, field? fs p.1 = some v → accepts p.2 v
  | [], _, _, _, _, _ => by simp
  | (name, schema) :: rest, fs, gs, hs, h, hg => by
    simp only [propertiesCompareStrings, Bool.and_eq_true] at hs
    rw [List.forall_mem_cons] at hg ⊢
    refine ⟨fun v hv => ?_, acceptsFields_of_alike hs.2 h hg.2⟩
    obtain ⟨w, hw⟩ := Option.isSome_iff_exists.1 ((h.isSome_iff name).1 (by simp [hv]))
    obtain ⟨v', hv', hvw⟩ := h.exists_of_some hw
    cases hv.symm.trans hv'
    exact accepts_of_alike hs.1 hvw (hg.1 w hw)

end

end DiffReview.Schema
