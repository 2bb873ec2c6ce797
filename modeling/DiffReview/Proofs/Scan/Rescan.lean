import DiffReview.Proofs.Scan.Blocks

/-!
# Scanning kept lines again

The lines between the blocks of a diff leave no trace: without them, the scan places every line of
the blocks as before. What may differ is only that a block which was closed is still open, and the
lines that then come next open a block of their own all the same. For that reason a block that
stands alone is scanned to its end as well.
-/
namespace DiffReview

namespace ScanState

/-- A line that is waited for continues a block. -/
theorem continues_or_body_of_heralds {s t : ScanState} {line : Line} {next : Option Line}
    {p : Placement} (h : Heralds (some line)) (hp : s.place line next = .ok (p, t)) :
    p = .continues ∨ p = .body := by
  have hm : Mark.ofLine line = .target := mark_of_heralds h
  rcases place_eq_ok_iff.1 hp with ⟨-, -, rfl, -⟩ | ⟨-, ho⟩
  · exact .inr rfl
  · left
    cases ho <;> simp_all

/-- A line that is not skipped looks ahead only for a target line. -/
theorem Outside.of_heralds {s t : ScanState} {line : Line} {next other : Option Line}
    {p : Placement} (h : Outside s line next p t) (hp : p ≠ .skipped)
    (hn : Heralds next → Heralds other) : Outside s line other p t := by
  cases h with
  | noteKept hm hi => exact .noteKept hm hi
  | noteSkipped => exact absurd rfl hp
  | hunk hm hh hi ho hn => exact .hunk hm hh hi ho hn
  | command hm => exact .command hm
  | sourceKept hm ht hi hg => exact .sourceKept hm (hn ht) hi hg
  | sourceOpens hm ht hg => exact .sourceOpens hm (hn ht) hg
  | sourceSkipped => exact absurd rfl hp
  | target hm he hi => exact .target hm he hi
  | binaryOpens hm hg => exact .binaryOpens hm hg
  | otherSkipped => exact absurd rfl hp
  | signature hm hi hb hh hs => exact .signature hm hi hb hh hs
  | otherKept hm hi hb hs hl => exact .otherKept hm hi hb hs hl

theorem place_of_heralds {s t : ScanState} {line : Line} {next other : Option Line}
    {p : Placement} (h : s.place line next = .ok (p, t)) (hp : p ≠ .skipped)
    (hn : Heralds next → Heralds other) : s.place line other = .ok (p, t) := by
  rcases place_eq_ok_iff.1 h with hb | ⟨hb, ho⟩
  · exact place_eq_ok_iff.2 (.inl hb)
  · exact place_eq_ok_iff.2 (.inr ⟨hb, ho.of_heralds hp hn⟩)

/-- A signature closes a block outside its hunk bodies. -/
theorem exhausted_of_place_closes {s t : ScanState} {line : Line} {next : Option Line}
    (hc : s.Coherent (some line)) (h : s.place line next = .ok (.closes, t)) :
    s.Exhausted ∧ s.gitHeader = false ∧ s.expectTarget = false ∧ t.inside = false := by
  rcases place_eq_ok_iff.1 h with ⟨-, -, hp, -⟩ | ⟨hb, ho⟩
  · cases hp
  · cases ho with
    | signature hm hi hblank hh hs =>
      have hbody : s.inBody = false := by simpa [Line.isBody_of_isSignature hs] using hb
      have hx := exhausted_leaveBody hc
      rw [leaveBody_of_not_inBody hbody] at hx
      refine ⟨hx, ?_, ?_, rfl⟩
      · by_contra hg
        simp [hc.header (by simpa using hg)] at hh
      · exact expectTarget_of_mark hc (by rcases hm with hm | ⟨hm, -⟩ <;> simp [hm])

/-- A line that opens a block does so in every state outside hunk bodies that is in no header and
waits for nothing, and then no later line can tell the two states apart. -/
theorem Outside.opens {s t s' : ScanState} {line : Line} {next : Option Line}
    (h : Outside s line next .opens t) (hc : s.Coherent (some line)) (hx : s.Exhausted)
    (hg : s'.gitHeader = false) (he : s'.expectTarget = false) (hx' : s'.Exhausted) :
    ∃ t', s'.place line next = .ok (.opens, t') ∧ Agree t t' := by
  cases h with
  | command hm =>
    have hw : s.expectTarget = false := expectTarget_of_mark hc (by simp [hm])
    exact ⟨_, place_of_outside hx' (.command hm), rfl, rfl, hw.trans he.symm, fun _ => rfl,
      .inr ⟨hx, hx'⟩⟩
  | sourceOpens hm ht =>
    exact ⟨_, place_of_outside hx' (.sourceOpens hm ht (by simp [hg])), rfl, rfl, rfl,
      fun _ => rfl, .inr ⟨hx, hx'⟩⟩
  | binaryOpens hm hs =>
    have hw : s.expectTarget = false := expectTarget_of_mark hc (by simp [hm])
    exact ⟨_, place_of_outside hx' (.binaryOpens hm hg), rfl, hs.trans hg.symm,
      hw.trans he.symm, fun _ => rfl, .inr ⟨hx, hx'⟩⟩

/-- The second state is reached over kept lines where the first is reached over all lines: they
agree, or the first has no block open and the second can take up a block. -/
inductive Follows (s s' : ScanState) : Prop
  | agree (h : Agree s s')
  | closed (hi : s.inside = false) (hg : s'.gitHeader = false) (he : s'.expectTarget = false)
      (hx : s'.Exhausted)

namespace Follows

variable {s s' t : ScanState} {line : Line} {next other : Option Line} {p : Placement}

/-- A kept line is placed alike, and from then on the states agree. -/
theorem keeps (h : Follows s s') (hc : s.Coherent (some line))
    (hp : s.place line next = .ok (p, t)) (hk : Block.isKept (p, line) = true)
    (hn : Heralds next → Heralds other) :
    ∃ t', s'.place line other = .ok (p, t') ∧ Agree t t' := by
  have hskip : p ≠ .skipped := by
    rintro rfl
    simp [Block.isKept] at hk
  have hp' := place_of_heralds hp hskip hn
  cases h with
  | agree h =>
    have ha := h.place line other
    rw [hp'] at ha
    generalize hs : s'.place line other = answer at ha
    cases ha with
    | ok _ ht => exact ⟨_, rfl, ht⟩
  | closed hi hg he hx =>
    rcases opens_or_skipped_of_not_inside hi hp with rfl | rfl
    · rcases place_eq_ok_iff.1 hp' with ⟨-, -, ho, -⟩ | ⟨-, ho⟩
      · cases ho
      · have hx' := (hc.closed hi).2
        rw [leaveBody_of_not_inBody (not_inBody_of_exhausted hx')] at ho
        exact ho.opens hc hx' hg he hx
    · exact absurd rfl hskip

/-- A line that is dropped leaves no trace. -/
theorem drops (h : Follows s s') (hc : s.Coherent (some line))
    (hp : s.place line next = .ok (p, t)) (hk : Block.isKept (p, line) = false) :
    Follows t s' := by
  cases p with
  | skipped =>
    obtain rfl := eq_of_place_skipped hp
    exact h
  | closes =>
    obtain ⟨hx, hg, he, hi⟩ := exhausted_of_place_closes hc hp
    cases h with
    | agree h =>
      have hx' : s'.Exhausted := by
        rcases h.left with ⟨ho, hn⟩ | ⟨-, hx'⟩
        · rwa [Exhausted, ← ho, ← hn]
        · exact hx'
      exact .closed hi (h.gitHeader ▸ hg) (h.expectTarget ▸ he) hx'
    | closed _ hg he hx => exact .closed hi hg he hx
  | _ => simp [Block.isKept] at hk

end Follows
end ScanState

namespace Scan

theorem Run.heralds_filter {s t : ScanState} {placed : List (Placement × Line)}
    {next : Option Line} (h : Run s placed next t)
    (hn : ScanState.Heralds (upcoming placed next)) :
    ScanState.Heralds (upcoming (placed.filter Block.isKept) next) := by
  cases h with
  | done => exact hn
  | step hp _ =>
    rcases ScanState.continues_or_body_of_heralds hn hp with rfl | rfl <;> exact hn

/-- The kept lines of a run are placed as before, from every state that follows. -/
theorem Run.follow {s s' t : ScanState} {placed : List (Placement × Line)} {next : Option Line}
    (h : Run s placed next t) (hc : s.Coherent (upcoming placed next)) (hf : s.Follows s') :
    ∃ t', Run s' (placed.filter Block.isKept) next t' := by
  induction h generalizing s' with
  | done => exact ⟨s', .done _ _⟩
  | @step s u _ p line later _ hp hr ih =>
    have hcu := hc.place hp
    cases hk : Block.isKept (p, line) with
    | true =>
      obtain ⟨u', hp', ha⟩ := hf.keeps hc hp hk hr.heralds_filter
      obtain ⟨t', hr'⟩ := ih hcu (.agree ha)
      refine ⟨t', ?_⟩
      rw [List.filter_cons_of_pos hk]
      exact .step hp' hr'
    | false =>
      rw [List.filter_cons_of_neg (by simp [hk])]
      exact ih hcu (hf.drops hc hp hk)

/-- A run does not begin with a target line where it opens a block. -/
theorem Run.not_heralds_of_opens {s t : ScanState} {placed : List (Placement × Line)}
    {next : Option Line} (h : Run s placed next t) (ho : ∀ p ∈ placed.head?, p.1 = .opens)
    (hn : ¬ ScanState.Heralds next) : ¬ ScanState.Heralds (upcoming placed next) := by
  cases h with
  | done => exact hn
  | step hp _ =>
    intro hh
    obtain rfl := ho _ rfl
    rcases ScanState.continues_or_body_of_heralds hh hp with h | h <;> cases h

end Scan

namespace Block

theorem gather_filter_isKept (placed : List (Placement × Line)) :
    gather (placed.filter isKept) = gather placed := by
  induction placed with
  | nil => rfl
  | cons p placed ih =>
    obtain ⟨q, line⟩ := p
    cases q <;> simp [isKept, attach, ih]

/-- The kept lines begin with those that continue an earlier block, up to the next opening line. -/
theorem exists_own (placed : List (Placement × Line)) : ∃ own rest,
    placed.filter isKept = own ++ rest ∧ own.map Prod.snd = (gather placed).1 ∧
      gather own = ((gather placed).1, []) ∧ ∀ p ∈ rest.head?, p.1 = .opens := by
  induction placed with
  | nil => exact ⟨[], [], rfl, rfl, rfl, by simp⟩
  | cons p placed ih =>
    obtain ⟨q, line⟩ := p
    obtain ⟨own, rest, hf, hl, hg, ho⟩ := ih
    cases q with
    | opens => exact ⟨[], (.opens, line) :: placed.filter isKept, rfl, rfl, rfl, by simp⟩
    | skipped => exact ⟨own, rest, by simp [isKept, hf], hl, hg, ho⟩
    | closes => exact ⟨own, rest, by simp [isKept, hf], hl, hg, ho⟩
    | continues => exact ⟨(.continues, line) :: own, rest, by simp [isKept, hf],
        by simp [attach, hl], by simp [attach, hg], ho⟩
    | body => exact ⟨(.body, line) :: own, rest, by simp [isKept, hf],
        by simp [attach, hl], by simp [attach, hg], ho⟩

end Block

namespace Scan

/-- The block that a line opens is a run of its own from the start. -/
theorem Run.own_of_opens {s t : ScanState} {line : Line} {later : List (Placement × Line)}
    {next : Option Line} (h : Run s ((.opens, line) :: later) next t)
    (hc : s.Coherent (some line)) (hn : ¬ ScanState.Heralds next) :
    ∃ own u, Run {} ((.opens, line) :: own) none u ∧
      own.map Prod.snd = (Block.gather later).1 ∧
      Block.gather own = ((Block.gather later).1, []) := by
  cases h with
  | @step _ v _ _ _ _ _ hp hr =>
    rcases ScanState.place_eq_ok_iff.1 hp with ⟨-, -, ho, -⟩ | ⟨-, ho⟩
    · cases ho
    obtain ⟨v', hp', ha⟩ : ∃ v', ({} : ScanState).place line (upcoming later next) =
        .ok (.opens, v') ∧ v.Agree v' :=
      ho.opens (ScanState.coherent_leaveBody hc) (ScanState.exhausted_leaveBody hc) rfl rfl
        ⟨Int.le_refl 0, Int.le_refl 0⟩
    obtain ⟨t', hr'⟩ := hr.follow (hc.place hp) (.agree ha)
    obtain ⟨own, rest, hf, hl, hg, hopen⟩ := Block.exists_own later
    have hkept : Run {} ((.opens, line) :: own ++ rest) next t' := by
      rw [List.cons_append, ← hf]
      exact .step (ScanState.place_of_heralds hp' (by simp) hr.heralds_filter) hr'
    obtain ⟨u, hu, hrest⟩ := hkept.of_append
    have hnone := hrest.not_heralds_of_opens hopen hn
    exact ⟨own, u, hu.congr (iff_of_false hnone (by simp [ScanState.Heralds])), hl, hg⟩

end Scan
end DiffReview
