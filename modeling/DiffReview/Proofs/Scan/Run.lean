import DiffReview.Proofs.Scan.Step
import DiffReview.Diff.Block

/-!
# Runs of the scanner

A run leads from one state to another over placed lines; the line that comes after the run is
known to its last step. Runs compose, and a scan that does not stop is a run over all its lines.
What every step keeps, given the lines placed so far, holds after every run.
-/
namespace DiffReview
namespace Scan

/-- The first of the placed lines, or else the line that comes after them. -/
def upcoming (placed : List (Placement × Line)) (next : Option Line) : Option Line :=
  (placed.head?.map Prod.snd).or next

@[simp] theorem upcoming_nil (next : Option Line) : upcoming [] next = next := rfl

@[simp] theorem upcoming_cons (p : Placement) (line : Line) (placed : List (Placement × Line))
    (next : Option Line) : upcoming ((p, line) :: placed) next = some line := rfl

theorem upcoming_append (first second : List (Placement × Line)) (next : Option Line) :
    upcoming (first ++ second) next = upcoming first (upcoming second next) := by
  cases first <;> rfl

theorem upcoming_head? (placed : List (Placement × Line)) (rest : List Line) :
    upcoming placed rest.head? = (placed.map Prod.snd ++ rest).head? := by
  cases placed <;> rfl

/-- The lines are placed one after the other, from the first state to the last. -/
inductive Run : ScanState → List (Placement × Line) → Option Line → ScanState → Prop
  | done (s : ScanState) (next : Option Line) : Run s [] next s
  | step {s t u : ScanState} {p : Placement} {line : Line} {later : List (Placement × Line)}
      {next : Option Line} (h : s.place line (upcoming later next) = .ok (p, t))
      (hr : Run t later next u) : Run s ((p, line) :: later) next u

namespace Run

theorem append {s t u : ScanState} {first second : List (Placement × Line)} {next : Option Line}
    (h₁ : Run s first (upcoming second next) t) (h₂ : Run t second next u) :
    Run s (first ++ second) next u := by
  generalize hn : upcoming second next = n at h₁
  induction h₁ with
  | done => exact h₂
  | step hp _ ih =>
    subst hn
    refine .step ?_ (ih h₂ rfl)
    rw [← hp]
    exact congrArg _ (upcoming_append _ _ _)

theorem of_append {s u : ScanState} {first second : List (Placement × Line)}
    {next : Option Line} (h : Run s (first ++ second) next u) :
    ∃ t, Run s first (upcoming second next) t ∧ Run t second next u := by
  induction first generalizing s with
  | nil => exact ⟨s, .done _ _, h⟩
  | cons pl first ih =>
    cases h with
    | step hp hr =>
      obtain ⟨t, h₁, h₂⟩ := ih hr
      exact ⟨t, .step (by rwa [← upcoming_append]) h₁, h₂⟩

/-- A scan goes over a run and then on from the state to which the run leads. -/
theorem after_append {s t : ScanState} {placed : List (Placement × Line)} {rest : List Line}
    (h : Run s placed rest.head? t) :
    after s (placed.map Prod.snd ++ rest) =
      ⟨placed ++ (after t rest).placed, (after t rest).stop⟩ := by
  generalize hn : rest.head? = next at h
  induction h with
  | done => rfl
  | step hp _ ih =>
    subst hn
    rw [upcoming_head?] at hp
    rw [List.map_cons, List.cons_append, after_cons_of_ok hp, ih rfl]
    rfl

/-- A run to the end of the lines is their scan. -/
theorem after_eq {s t : ScanState} {placed : List (Placement × Line)} (h : Run s placed none t) :
    after s (placed.map Prod.snd) = ⟨placed, none⟩ := by
  have ha : after s (placed.map Prod.snd ++ []) = _ := after_append h
  simpa using ha

/-- What every step keeps, given the lines placed before it and the line that comes after it, holds
at the end of a run. -/
theorem preserves {P : List (Placement × Line) → ScanState → Option Line → Prop}
    (hstep : ∀ {before s p line next t}, P before s (some line) →
      s.place line next = .ok (p, t) → P (before ++ [(p, line)]) t next)
    {placed : List (Placement × Line)} {s t : ScanState} {next : Option Line}
    (h : Run s placed next t) (before : List (Placement × Line))
    (h₀ : P before s (upcoming placed next)) :
    P (before ++ placed) t next := by
  induction h generalizing before with
  | done => simpa using h₀
  | step hp _ ih =>
    have h₁ := ih _ (hstep h₀ hp)
    simpa using h₁

end Run

/-- A scan that does not stop is a run over all lines. -/
theorem run_of_stop_eq_none {s : ScanState} {lines : List Line} (h : (after s lines).stop = none) :
    ∃ t, Run s (after s lines).placed none t := by
  induction lines generalizing s with
  | nil => exact ⟨s, .done s none⟩
  | cons line rest ih =>
    cases hp : s.place line rest.head? with
    | error stop => simp [after_cons_of_error hp] at h
    | ok r =>
      obtain ⟨p, t⟩ := r
      rw [after_cons_of_ok hp] at h ⊢
      obtain ⟨u, hr⟩ := ih h
      refine ⟨u, .step ?_ hr⟩
      have hl : (after t rest).placed.map Prod.snd = rest := placed_lines_of_stop_eq_none h
      rw [← hp]
      congr 1
      have := upcoming_head? (after t rest).placed []
      rw [List.append_nil, hl] at this
      exact this

end Scan
end DiffReview
