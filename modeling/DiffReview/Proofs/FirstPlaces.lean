import Mathlib.Data.List.Basic
import Mathlib.Data.List.Induction

/-!
# First places

Without its repeats a list keeps every element at its first place. So what is left of a list that
grows at its end grows there too, by the elements that are new, and stands in the order of first
places.
-/

namespace DiffReview

variable {α β : Type} [BEq α] [LawfulBEq α] [BEq β] [LawfulBEq β]

/-- A list that grows by one element grows without its repeats if the element is new. -/
theorem eraseDups_concat (as : List α) (a : α) :
    (as ++ [a]).eraseDups = if a ∈ as then as.eraseDups else as.eraseDups ++ [a] := by
  rw [List.eraseDups_append]
  by_cases h : a ∈ as <;> simp [List.removeAll, List.eraseDups_cons, h]

/-- It does not matter whether repeats or other elements are dropped first. -/
theorem eraseDups_filter (p : α → Bool) (as : List α) :
    (as.filter p).eraseDups = as.eraseDups.filter p := by
  induction as using List.reverseRecOn with
  | nil => simp
  | append_singleton as a ih =>
    rw [List.filter_append, eraseDups_concat]
    by_cases hp : p a <;> by_cases ha : a ∈ as <;> simp [hp, ha, ih, eraseDups_concat]

/-- Of a list behind another one the elements are left that are new. -/
theorem eraseDups_append_eq_filter (as bs : List α) :
    (as ++ bs).eraseDups = as.eraseDups ++ bs.eraseDups.filter (· ∉ as) := by
  rw [List.eraseDups_append, ← eraseDups_filter]
  congr 3
  simp [List.removeAll]

/-- What tells the elements of a list apart keeps their first places. -/
theorem eraseDups_map {f : α → β} {as : List α} (hf : ∀ a ∈ as, ∀ b ∈ as, f a = f b → a = b) :
    (as.map f).eraseDups = as.eraseDups.map f := by
  induction as using List.reverseRecOn with
  | nil => simp
  | append_singleton as a ih =>
    have hmem : f a ∈ as.map f ↔ a ∈ as := by
      constructor
      · intro h
        obtain ⟨b, hb, he⟩ := List.mem_map.1 h
        obtain rfl := hf b (by simp [hb]) a (by simp) he
        exact hb
      · exact List.mem_map_of_mem
    have ih := ih fun b hb c hc => hf b (by simp [hb]) c (by simp [hc])
    rw [List.map_append, List.map_singleton, eraseDups_concat, eraseDups_concat, ih]
    by_cases h : a ∈ as
    · rw [if_pos (hmem.2 h), if_pos h]
    · rw [if_neg (hmem.not.2 h), if_neg h, List.map_append, List.map_singleton]

/-- Without repeats the elements stand in the order of their first places. -/
theorem pairwise_idxOf_eraseDups (as : List α) :
    as.eraseDups.Pairwise fun a b => as.idxOf a < as.idxOf b := by
  induction as using List.reverseRecOn with
  | nil => simp
  | append_singleton as a ih =>
    -- what grows at its end keeps the first places of its elements
    have hgrown : as.eraseDups.Pairwise fun b c => (as ++ [a]).idxOf b < (as ++ [a]).idxOf c := by
      refine ih.imp_of_mem fun {b c} hb hc hlt => ?_
      rw [List.idxOf_append_of_mem (List.mem_eraseDups.1 hb),
        List.idxOf_append_of_mem (List.mem_eraseDups.1 hc)]
      exact hlt
    rw [eraseDups_concat]
    by_cases h : a ∈ as
    · rw [if_pos h]
      exact hgrown
    · rw [if_neg h, List.pairwise_append]
      refine ⟨hgrown, List.pairwise_singleton _ _, fun b hb c hc => ?_⟩
      obtain rfl := List.mem_singleton.1 hc
      have hb := List.mem_eraseDups.1 hb
      rw [List.idxOf_append_of_mem hb, List.idxOf_append_of_notMem h]
      exact Nat.lt_add_right _ (List.idxOf_lt_length_of_mem hb)

end DiffReview
