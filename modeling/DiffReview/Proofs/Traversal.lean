import Mathlib.Data.List.Forall2

/-!
# Traversals

Facts about lists that are traversed by a step that can fail, that are related element by element,
or that are changed at one place.
-/
namespace DiffReview

/-- Two steps that can fail succeed together when both succeed. -/
theorem bind_eq_ok_iff {ε α β : Type} {x : Except ε α} {f : α → Except ε β} {b : β} :
    (x >>= f) = .ok b ↔ ∃ a, x = .ok a ∧ f a = .ok b := by
  cases x with
  | error e => simp [bind, Except.bind]
  | ok a => simp [bind, Except.bind]

/-- A traversal that can fail succeeds when it does at every element, in order. -/
theorem mapM_eq_ok_iff {ε α β : Type} {f : α → Except ε β} {as : List α} {bs : List β} :
    as.mapM f = .ok bs ↔ List.Forall₂ (fun a b => f a = .ok b) as bs := by
  induction as generalizing bs with
  | nil => simp [pure, Except.pure, eq_comm]
  | cons a as ih =>
    rw [List.mapM_cons, bind_eq_ok_iff]
    constructor
    · rintro ⟨b, ha, hb⟩
      obtain ⟨rest, hr, hp⟩ := bind_eq_ok_iff.1 hb
      cases hp
      exact .cons ha (ih.1 hr)
    · intro h
      cases h with
      | cons ha hr => exact ⟨_, ha, bind_eq_ok_iff.2 ⟨_, ih.2 hr, rfl⟩⟩

theorem bind_eq_error_iff {ε α β : Type} {x : Except ε α} {f : α → Except ε β} {e : ε} :
    (x >>= f) = .error e ↔ x = .error e ∨ ∃ a, x = .ok a ∧ f a = .error e := by
  cases x with
  | error e' => simp [bind, Except.bind]
  | ok a => simp [bind, Except.bind]

/-- A traversal that fails does so at the first element at which the step fails. -/
theorem exists_split_of_mapM_eq_error {ε α β : Type} {f : α → Except ε β} {as : List α} {e : ε}
    (h : as.mapM f = .error e) : ∃ before a after bs, as = before ++ a :: after ∧
      before.mapM f = .ok bs ∧ f a = .error e := by
  induction as with
  | nil => simp [pure, Except.pure] at h
  | cons a as ih =>
    rw [List.mapM_cons, bind_eq_error_iff] at h
    rcases h with ha | ⟨b, hb, hrest⟩
    · exact ⟨[], a, as, [], rfl, rfl, ha⟩
    · rcases bind_eq_error_iff.1 hrest with hr | ⟨bs, -, hpure⟩
      · obtain ⟨before, c, after, bs, rfl, hbs, he⟩ := ih hr
        exact ⟨a :: before, c, after, b :: bs, rfl,
          mapM_eq_ok_iff.2 (.cons hb (mapM_eq_ok_iff.1 hbs)), he⟩
      · simp [pure, Except.pure] at hpure

/-- A traversal that fails does so at one of the elements. -/
theorem exists_of_mapM_eq_error {ε α β : Type} {f : α → Except ε β} {as : List α} {e : ε}
    (h : as.mapM f = .error e) : ∃ a ∈ as, f a = .error e := by
  obtain ⟨before, a, after, -, rfl, -, ha⟩ := exists_split_of_mapM_eq_error h
  exact ⟨a, by simp, ha⟩

/-- A fold that fails does so at one of the elements, whatever it has come to before. -/
theorem exists_of_foldlM_eq_error {ε σ α : Type} {f : σ → α → Except ε σ} {s : σ} {as : List α}
    {e : ε} (h : as.foldlM f s = .error e) : ∃ a ∈ as, ∃ t, f t a = .error e := by
  induction as generalizing s with
  | nil => simp [pure, Except.pure] at h
  | cons a as ih =>
    rw [List.foldlM_cons, bind_eq_error_iff] at h
    rcases h with ha | ⟨t, -, hrest⟩
    · exact ⟨a, List.mem_cons_self, s, ha⟩
    · obtain ⟨b, hb, he⟩ := ih hrest
      exact ⟨b, List.mem_cons_of_mem _ hb, he⟩

/-- A traversal of a list that is not empty begins with its head. -/
theorem mapM_cons_eq_some {α β : Type} {f : α → Option β} {a : α} {as : List α} {bs : List β}
    (h : (a :: as).mapM f = some bs) :
    ∃ b rest, f a = some b ∧ as.mapM f = some rest ∧ bs = b :: rest := by
  rw [List.mapM_cons] at h
  simp only [Option.bind_eq_bind, Option.bind_eq_some_iff] at h
  obtain ⟨b, hb, rest, hr, he⟩ := h
  cases he
  exact ⟨b, rest, hb, hr, rfl⟩

/-- A traversal that succeeds does so at every element, in order. -/
theorem forall₂_of_mapM_eq_some {α β : Type} {f : α → Option β} {as : List α} {bs : List β}
    (h : as.mapM f = some bs) : List.Forall₂ (fun a b => f a = some b) as bs := by
  induction as generalizing bs with
  | nil =>
    cases h
    exact .nil
  | cons a as ih =>
    obtain ⟨b, rest, ha, hr, rfl⟩ := mapM_cons_eq_some h
    exact .cons ha (ih hr)

/-- A traversal gives the middle of a list its own result. -/
theorem mapM_append_cons_eq_some_iff {α β : Type} {f : α → Option β} {front back : List α} {a : α}
    {bs : List β} : (front ++ a :: back).mapM f = some bs ↔
      ∃ first b last, bs = first ++ b :: last ∧ front.mapM f = some first ∧ f a = some b ∧
        back.mapM f = some last := by
  rw [List.mapM_append, List.mapM_cons]
  simp only [Option.bind_eq_bind, Option.bind_eq_some_iff, Option.pure_def, Option.some.injEq]
  constructor
  · rintro ⟨first, hf, _, ⟨b, hb, last, hl, rfl⟩, rfl⟩
    exact ⟨first, b, last, rfl, hf, hb, hl⟩
  · rintro ⟨first, b, last, rfl, hf, hb, hl⟩
    exact ⟨first, hf, _, ⟨b, hb, last, hl, rfl⟩, rfl⟩

/-- A traversal of a concatenation of lists gives one list for each. -/
theorem mapM_flatMap_eq_some {α β γ : Type} {f : α → List β} {g : β → Option γ} {as : List α}
    {cs : List γ} (h : (as.flatMap f).mapM g = some cs) :
    ∃ runs, cs = runs.flatten ∧ List.Forall₂ (fun a run => (f a).mapM g = some run) as runs := by
  induction as generalizing cs with
  | nil => exact ⟨[], by simpa using h.symm, .nil⟩
  | cons a as ih =>
    rw [List.flatMap_cons, List.mapM_append] at h
    simp only [Option.bind_eq_bind, Option.bind_eq_some_iff] at h
    obtain ⟨run, ha, rest, hr, hc⟩ := h
    cases hc
    obtain ⟨runs, rfl, hruns⟩ := ih hr
    exact ⟨run :: runs, rfl, .cons ha hruns⟩

theorem mem_of_lookup_eq_some {α β : Type} [BEq α] [LawfulBEq α] {l : List (α × β)} {a : α} {b : β}
    (h : l.lookup a = some b) : (a, b) ∈ l := by
  obtain ⟨l₁, l₂, rfl, -⟩ := List.lookup_eq_some_iff.1 h
  simp

/-- Values that are changed are looked up as before, and changed. -/
theorem lookup_map {α β γ : Type} [BEq α] (f : β → γ) (l : List (α × β)) (a : α) :
    (l.map fun entry => (entry.1, f entry.2)).lookup a = (l.lookup a).map f := by
  induction l with
  | nil => rfl
  | cons entry l ih =>
    rw [List.map_cons, List.lookup_cons, List.lookup_cons, ih]
    cases a == entry.1 <;> rfl

theorem nodup_eraseDups {α : Type} [BEq α] [LawfulBEq α] (as : List α) : as.eraseDups.Nodup := by
  match as with
  | [] => simp
  | a :: as =>
    rw [List.eraseDups_cons, List.nodup_cons]
    refine ⟨?_, nodup_eraseDups _⟩
    simp [List.mem_eraseDups]
termination_by as.length
decreasing_by
  have hle := List.length_filter_le (fun b => !b == a) as
  simp only [List.length_cons]
  omega

theorem exists_of_forall₂_of_mem {α β : Type} {R : α → β → Prop} {as : List α} {bs : List β}
    (h : List.Forall₂ R as bs) {a : α} (ha : a ∈ as) : ∃ b ∈ bs, R a b := by
  induction h with
  | nil => simp at ha
  | @cons _ b _ _ hr _ ih =>
    rcases List.mem_cons.1 ha with rfl | ha
    · exact ⟨b, List.mem_cons_self, hr⟩
    · obtain ⟨c, hc, hrc⟩ := ih ha
      exact ⟨c, List.mem_cons_of_mem _ hc, hrc⟩

/-- Relations between the elements of lists are composed elementwise. -/
theorem forall₂_trans {α β γ : Type} {R : α → β → Prop} {S : β → γ → Prop} {as : List α}
    {bs : List β} {cs : List γ} (h : List.Forall₂ R as bs) (h' : List.Forall₂ S bs cs) :
    List.Forall₂ (fun a c => ∃ b, R a b ∧ S b c) as cs := by
  induction h generalizing cs with
  | nil =>
    cases h'
    exact .nil
  | cons hr _ ih =>
    cases h' with
    | cons hs hss => exact .cons ⟨_, hr, hs⟩ (ih hss)

theorem map_eq_of_forall₂ {α β γ : Type} {f : α → γ} {g : β → γ} {as : List α} {bs : List β}
    (h : List.Forall₂ (fun a b => f a = g b) as bs) : as.map f = bs.map g := by
  rw [← List.forall₂_eq_eq_eq, List.forall₂_map_left_iff, List.forall₂_map_right_iff]
  exact h

/-- What is related to a concatenation is one. -/
theorem exists_of_forall₂_append {α β : Type} {R : α → β → Prop} {as as' : List α} {bs : List β}
    (h : List.Forall₂ R (as ++ as') bs) :
    ∃ cs cs', bs = cs ++ cs' ∧ List.Forall₂ R as cs ∧ List.Forall₂ R as' cs' := by
  induction as generalizing bs with
  | nil => exact ⟨[], bs, rfl, .nil, h⟩
  | cons a as ih =>
    cases h with
    | cons hr hrest =>
      obtain ⟨cs, cs', rfl, hcs, hcs'⟩ := ih hrest
      exact ⟨_ :: cs, cs', rfl, .cons hr hcs, hcs'⟩

/-- A list between two others is changed at its own place. -/
theorem modify_length_append {α : Type} (front back : List α) (a : α) (f : α → α) :
    (front ++ a :: back).modify front.length f = front ++ f a :: back := by
  induction front with
  | nil => rfl
  | cons b front ih => simp [ih]

/-- A list is taken apart at one of its elements. -/
theorem eq_take_append_of_getElem? {α : Type} {as : List α} {i : Nat} {a : α}
    (h : as[i]? = some a) : as = as.take i ++ a :: as.drop (i + 1) := by
  obtain ⟨hlt, rfl⟩ := List.getElem?_eq_some_iff.1 h
  rw [← List.drop_eq_getElem_cons, List.take_append_drop]

/-- What a change of one element keeps of it is kept of the list. -/
theorem map_modify {α β : Type} (g : α → β) (f : α → α) (h : ∀ a, g (f a) = g a) (as : List α)
    (i : Nat) : (as.modify i f).map g = as.map g := by
  induction as generalizing i with
  | nil => simp
  | cons a as ih =>
    cases i with
    | zero => simp [h]
    | succ i => simp [ih]

theorem isPrefixOf?_append {α : Type} [BEq α] [LawfulBEq α] (l m : List α) :
    l.isPrefixOf? (l ++ m) = some m :=
  List.isPrefixOf?_eq_some_iff_append_eq.2 rfl

end DiffReview
