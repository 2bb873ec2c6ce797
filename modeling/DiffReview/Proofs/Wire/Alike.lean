import DiffReview.Json.Basic
import DiffReview.Proofs.Traversal

/-!
# Values up to the order of fields

The fields of an object come in no particular order, and of several fields of one name the first
counts. Two values are alike when they say the same by this reading, at every depth. The module
also has the parts of a value by name, and the values whose numbers are all integers.
-/

namespace DiffReview.Json

section Fields

variable {fs gs : List (String × Json)} {name : String} {v : Json}

@[simp] theorem field?_nil (name : String) : field? [] name = none := rfl

@[simp] theorem field?_cons (m : String) (v : Json) (fs : List (String × Json)) (name : String) :
    field? ((m, v) :: fs) name = if name = m then some v else field? fs name := by
  by_cases h : name = m
  · simp [field?, h]
  · simp [field?, List.lookup_cons, beq_false_of_ne h, h]

@[simp] theorem field?_append (fs gs : List (String × Json)) (name : String) :
    field? (fs ++ gs) name = (field? fs name).or (field? gs name) := by
  induction fs with
  | nil => simp
  | cons f fs ih =>
    obtain ⟨m, v⟩ := f
    by_cases h : name = m <;> simp [h, ih]

@[simp] theorem field?_optional (m : String) (value : Option Json) (name : String) :
    field? (optional m value) name = if name = m then value else none := by
  cases value <;> simp [optional]

@[simp] theorem forall_mem_optional {m : String} {value : Option Json}
    {p : String × Json → Prop} :
    (∀ f ∈ optional m value, p f) ↔ ∀ v, value = some v → p (m, v) := by
  cases value <;> simp [optional]

theorem mem_of_field?_eq_some (h : field? fs name = some v) : (name, v) ∈ fs :=
  mem_of_lookup_eq_some h

theorem isSome_field?_of_mem {f : String × Json} (h : f ∈ fs) : (field? fs f.1).isSome := by
  induction fs with
  | nil => simp at h
  | cons g fs ih =>
    obtain ⟨m, w⟩ := g
    by_cases hm : f.1 = m
    · simp [hm]
    · have hf : f ∈ fs := by
        rcases List.mem_cons.1 h with rfl | h
        · exact absurd rfl hm
        · exact h
      simpa [hm] using ih hf

end Fields

/-- The part of an object that has a name. -/
def get? : Json → String → Option Json
  | .obj fields, name => field? fields name
  | _, _ => none

@[simp] theorem get?_obj (fields : List (String × Json)) (name : String) :
    (Json.obj fields).get? name = field? fields name := rfl

/-- The items of the array that is a part of an object. -/
def items (v : Json) (name : String) : List Json :=
  match v.get? name with
  | some (.arr items) => items
  | _ => []

/-- A value without parts. -/
def isScalar : Json → Bool
  | .arr _ => false
  | .obj _ => false
  | _ => true

/-- Equality up to the order of fields. -/
inductive Alike : Json → Json → Prop
  | null : Alike .null .null
  | bool (b : Bool) : Alike (.bool b) (.bool b)
  | int (n : Int) : Alike (.int n) (.int n)
  | float (d : Decimal) : Alike (.float d) (.float d)
  | nonFinite (x : NonFinite) : Alike (.nonFinite x) (.nonFinite x)
  | str (s : String) : Alike (.str s) (.str s)
  | arr {vs ws : List Json} (h : List.Forall₂ Alike vs ws) : Alike (.arr vs) (.arr ws)
  | obj {fs gs : List (String × Json)}
      (h : ∀ name, Option.Rel Alike (field? fs name) (field? gs name)) : Alike (.obj fs) (.obj gs)

/-- Fields of one name are alike, or both are missing. -/
def AlikeFields (fs gs : List (String × Json)) : Prop :=
  ∀ name, Option.Rel Alike (field? fs name) (field? gs name)

mutual

@[simp] theorem Alike.refl : ∀ v : Json, v.Alike v
  | .null => .null
  | .bool b => .bool b
  | .int n => .int n
  | .float d => .float d
  | .nonFinite x => .nonFinite x
  | .str s => .str s
  | .arr vs => .arr (refl_items vs)
  | .obj fs => .obj (refl_fields fs)

theorem Alike.refl_items : ∀ vs : List Json, List.Forall₂ Alike vs vs
  | [] => .nil
  | v :: vs => .cons (refl v) (refl_items vs)

theorem Alike.refl_fields : ∀ fs : List (String × Json), AlikeFields fs fs
  | [], _ => .none
  | (m, v) :: fs, name => by
    by_cases h : name = m
    · simpa [h] using Option.Rel.some (refl v)
    · simpa [h] using refl_fields fs name

end

@[simp] theorem rel_self (x : Option Json) : Option.Rel Alike x x := by
  cases x with
  | none => exact .none
  | some v => exact .some (.refl v)

@[simp] theorem alike_str_iff {v : Json} {s : String} : v.Alike (.str s) ↔ v = .str s :=
  ⟨fun h => by cases h; rfl, fun h => h ▸ .str s⟩

theorem exists_of_rel_some {x : Option Json} {w : Json} (h : Option.Rel Alike x (some w)) :
    ∃ v, x = some v ∧ v.Alike w := by
  cases h with
  | some hvw => exact ⟨_, rfl, hvw⟩

namespace AlikeFields

variable {fs gs : List (String × Json)} {name : String}

/-- Alike objects have the same names. -/
theorem isSome_iff (h : AlikeFields fs gs) (name : String) :
    (field? fs name).isSome ↔ (field? gs name).isSome := by
  have hr := h name
  generalize field? fs name = x at hr
  generalize field? gs name = y at hr
  cases hr <;> simp

theorem exists_of_some (h : AlikeFields fs gs) {w : Json} (hw : field? gs name = some w) :
    ∃ v, field? fs name = some v ∧ v.Alike w := exists_of_rel_some (hw ▸ h name)

end AlikeFields

namespace Alike

variable {v w : Json}

theorem get? (h : v.Alike w) (name : String) : Option.Rel Alike (v.get? name) (w.get? name) := by
  cases h with
  | obj h => exact h name
  | _ => exact .none

/-- A part of one of two alike values has its like in the other. -/
theorem exists_get? (h : v.Alike w) {name : String} {b : Json} (hb : w.get? name = some b) :
    ∃ a, v.get? name = some a ∧ a.Alike b := exists_of_rel_some (hb ▸ h.get? name)

theorem items (h : v.Alike w) (name : String) :
    List.Forall₂ Alike (v.items name) (w.items name) := by
  have hr := h.get? name
  unfold Json.items
  generalize v.get? name = x at hr
  generalize w.get? name = y at hr
  cases hr with
  | none => exact .nil
  | some hvw =>
    cases hvw with
    | arr hs => exact hs
    | _ => exact .nil

/-- Values that are alike have the same scalars under a name. -/
theorem get?_eq_some_iff (h : v.Alike w) (name : String) {s : Json} (hs : s.isScalar) :
    v.get? name = some s ↔ w.get? name = some s := by
  have hr := h.get? name
  generalize v.get? name = x at hr
  generalize w.get? name = y at hr
  cases hr with
  | none => simp
  | some hvw =>
    cases hvw with
    | arr => cases s <;> simp_all [isScalar]
    | obj => cases s <;> simp_all [isScalar]
    | _ => rfl

end Alike

mutual

/-- Every number in a value is an integer. -/
def isIntegral : Json → Bool
  | .float _ => false
  | .nonFinite _ => false
  | .arr items => itemsIntegral items
  | .obj fields => fieldsIntegral fields
  | _ => true

def itemsIntegral : List Json → Bool
  | [] => true
  | v :: vs => isIntegral v && itemsIntegral vs

def fieldsIntegral : List (String × Json) → Bool
  | [] => true
  | (_, v) :: fs => isIntegral v && fieldsIntegral fs

end

theorem isIntegral_arr_iff {vs : List Json} : isIntegral (.arr vs) ↔ ∀ v ∈ vs, v.isIntegral := by
  rw [isIntegral]
  induction vs with
  | nil => simp [itemsIntegral]
  | cons v vs ih => simp [itemsIntegral, ih]

theorem isIntegral_obj_iff {fs : List (String × Json)} :
    isIntegral (.obj fs) ↔ ∀ f ∈ fs, f.2.isIntegral := by
  rw [isIntegral]
  induction fs with
  | nil => simp [fieldsIntegral]
  | cons f fs ih => simp [fieldsIntegral, ih]

theorem isIntegral_of_field? {fs : List (String × Json)} (h : isIntegral (.obj fs)) {name : String}
    {v : Json} (hv : field? fs name = some v) : v.isIntegral :=
  isIntegral_obj_iff.1 h _ (mem_of_field?_eq_some hv)

end DiffReview.Json
