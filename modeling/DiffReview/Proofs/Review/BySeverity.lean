import DiffReview.Review.Finding

/-!
# Issues by severity

Sorting keeps the issues of one severity in their order, and a list in descending order is made of
its errors, its warnings and its infos. So the sorted issues are these three parts of the issues,
one behind the other, and no other descending list has the same parts.
-/
namespace DiffReview

namespace Severity

theorem le_iff_not_lt {a b : Severity} : a ≤ b ↔ ¬ b < a := Nat.not_lt.symm

end Severity

namespace Finding

/-- The findings of one severity, in order. -/
def ofSeverity (severity : Severity) (findings : List Finding) : List Finding :=
  findings.filter (·.severity = severity)

/-- No finding is more severe than one before it. -/
def Descending (findings : List Finding) : Prop :=
  findings.Pairwise fun a b => b.severity ≤ a.severity

theorem ofSeverity_cons_self (a : Finding) (findings : List Finding) :
    ofSeverity a.severity (a :: findings) = a :: ofSeverity a.severity findings :=
  List.filter_cons_of_pos (by simp)

theorem ofSeverity_cons_of_ne {a : Finding} {severity : Severity} (h : a.severity ≠ severity)
    (findings : List Finding) :
    ofSeverity severity (a :: findings) = ofSeverity severity findings :=
  List.filter_cons_of_neg (by simpa using h)

theorem ofSeverity_reverse (severity : Severity) (findings : List Finding) :
    ofSeverity severity findings.reverse = (ofSeverity severity findings).reverse :=
  List.filter_reverse

/-- Behind a finding of a descending list there is none that is more severe. -/
theorem ofSeverity_eq_nil {a : Finding} {findings : List Finding}
    (h : Descending (a :: findings)) {severity : Severity} (hs : a.severity < severity) :
    ofSeverity severity findings = [] := by
  refine List.filter_eq_nil_iff.2 fun b hb => ?_
  have hle : b.severity ≤ a.severity := (List.pairwise_cons.1 h).1 b hb
  intro hbs
  obtain rfl : b.severity = severity := by simpa using hbs
  exact Severity.le_iff_not_lt.1 hle hs

/-- A descending list is its errors, its warnings and its infos. -/
theorem Descending.eq_parts {findings : List Finding} (h : Descending findings) :
    findings = ofSeverity .error findings ++ ofSeverity .warning findings ++
      ofSeverity .info findings := by
  induction findings with
  | nil => rfl
  | cons a rest ih =>
    have hrest := ih (List.pairwise_cons.1 h).2
    have hnil : ∀ severity, a.severity < severity → ofSeverity severity rest = [] :=
      fun _ => ofSeverity_eq_nil h
    have hself := ofSeverity_cons_self a rest
    have hother : ∀ severity, a.severity ≠ severity →
        ofSeverity severity (a :: rest) = ofSeverity severity rest :=
      fun _ hne => ofSeverity_cons_of_ne hne rest
    cases hs : a.severity with
    | error =>
      rw [hs] at hself hother
      rw [hself, hother .warning (by decide), hother .info (by decide)]
      exact congrArg (a :: ·) hrest
    | warning =>
      rw [hs] at hnil hself hother
      rw [hself, hother .error (by decide), hother .info (by decide), hnil .error (by decide)]
      rw [hnil .error (by decide)] at hrest
      exact congrArg (a :: ·) hrest
    | info =>
      rw [hs] at hnil hself hother
      rw [hself, hother .error (by decide), hother .warning (by decide), hnil .error (by decide),
        hnil .warning (by decide)]
      rw [hnil .error (by decide), hnil .warning (by decide)] at hrest
      exact congrArg (a :: ·) hrest

/-- Descending lists with the same findings of every severity are the same. -/
theorem Descending.ext {first second : List Finding} (h₁ : Descending first)
    (h₂ : Descending second)
    (h : ∀ severity, ofSeverity severity first = ofSeverity severity second) : first = second := by
  rw [h₁.eq_parts, h₂.eq_parts, h, h, h]

/-- A sort that does not tell findings of one severity apart keeps their order. -/
theorem ofSeverity_mergeSort {le : Finding → Finding → Bool}
    (htrans : ∀ a b c, le a b = true → le b c = true → le a c = true)
    (htotal : ∀ a b, (le a b || le b a) = true)
    (hequal : ∀ a b : Finding, a.severity = b.severity → le a b = true)
    (findings : List Finding) (severity : Severity) :
    ofSeverity severity (findings.mergeSort le) = ofSeverity severity findings := by
  have hall : (ofSeverity severity findings).Pairwise fun a b => le a b = true := by
    refine List.pairwise_of_forall_mem_list fun a ha b hb => hequal a b ?_
    have hsa : a.severity = severity := by simpa using (List.mem_filter.1 ha).2
    have hsb : b.severity = severity := by simpa using (List.mem_filter.1 hb).2
    rw [hsa, hsb]
  have hsub : (ofSeverity severity findings).Sublist (findings.mergeSort le) :=
    List.sublist_mergeSort htrans htotal hall List.filter_sublist
  -- Among the sorted findings of this severity they stand in order, and there are no more of them.
  have hfiltered : (ofSeverity severity findings).Sublist
      (ofSeverity severity (findings.mergeSort le)) := by
    simpa [ofSeverity, List.filter_filter] using hsub.filter (·.severity = severity)
  have hlength : (ofSeverity severity findings).length =
      (ofSeverity severity (findings.mergeSort le)).length :=
    ((List.mergeSort_perm findings le).filter _).length_eq.symm
  exact (hfiltered.eq_of_length hlength).symm

theorem trans_severity (a b c : Finding) (hab : decide (a.severity ≤ b.severity) = true)
    (hbc : decide (b.severity ≤ c.severity) = true) : decide (a.severity ≤ c.severity) = true := by
  simp only [decide_eq_true_eq] at *
  exact Nat.le_trans hab hbc

theorem total_severity (a b : Finding) :
    (decide (a.severity ≤ b.severity) || decide (b.severity ≤ a.severity)) = true := by
  simp only [Bool.or_eq_true, decide_eq_true_eq]
  exact Nat.le_total a.severity.rank b.severity.rank

theorem le_of_severity_eq {a b : Finding} (h : a.severity = b.severity) :
    decide (a.severity ≤ b.severity) = true := by
  rw [decide_eq_true_eq, h]
  exact Nat.le_refl b.severity.rank

end Finding

namespace Analysis

open Finding

theorem descending_bySeverity (analysis : Analysis) : Descending analysis.bySeverity := by
  have hsorted : analysis.bySeverity.Pairwise fun a b => decide (b.severity ≤ a.severity) = true :=
    List.pairwise_mergeSort (fun a b c hab hbc => trans_severity c b a hbc hab)
      (fun a b => total_severity b a) analysis.issues
  exact hsorted.imp of_decide_eq_true

/-- Sorting keeps the order of the issues of one severity. -/
theorem ofSeverity_bySeverity (analysis : Analysis) (severity : Severity) :
    ofSeverity severity analysis.bySeverity = ofSeverity severity analysis.issues :=
  ofSeverity_mergeSort (fun a b c hab hbc => trans_severity c b a hbc hab)
    (fun a b => total_severity b a) (fun _ _ h => le_of_severity_eq h.symm) analysis.issues severity

/-- Sorting by severity puts the issues in descending order and leaves those of one severity in
the order in which they stand. So it is the errors, the warnings and the infos of the issues, and
what is sorted stays as it is. -/
theorem bySeverity_sorted (analysis : Analysis) :
    analysis.bySeverity.Perm analysis.issues ∧
    analysis.bySeverity.Pairwise (fun a b => b.severity ≤ a.severity) ∧
    (∀ severity, analysis.bySeverity.filter (·.severity = severity) =
      analysis.issues.filter (·.severity = severity)) ∧
    { analysis with issues := analysis.bySeverity }.bySeverity = analysis.bySeverity ∧
    analysis.bySeverity = analysis.issues.filter (·.severity = .error) ++
      analysis.issues.filter (·.severity = .warning) ++
      analysis.issues.filter (·.severity = .info) := by
  refine ⟨analysis.bySeverity_perm, analysis.descending_bySeverity, analysis.ofSeverity_bySeverity,
    ?_, ?_⟩
  · exact (descending_bySeverity _).ext analysis.descending_bySeverity (ofSeverity_bySeverity _)
  · have hparts := analysis.descending_bySeverity.eq_parts
    rwa [ofSeverity_bySeverity, ofSeverity_bySeverity, ofSeverity_bySeverity] at hparts

/-- The same list comes out when the issues are read from behind, sorted in ascending order by
nothing but the strict order, and read from behind again. -/
theorem bySeverity_eq_reverse (analysis : Analysis) : analysis.bySeverity =
    (analysis.issues.reverse.mergeSort fun a b => !decide (b.severity < a.severity)).reverse := by
  have hle (a b : Finding) :
      (!decide (b.severity < a.severity)) = decide (a.severity ≤ b.severity) := by
    rw [← decide_not]
    exact decide_eq_decide.2 Severity.le_iff_not_lt.symm
  simp only [hle]
  refine analysis.descending_bySeverity.ext ?_ fun severity => ?_
  · rw [Descending, List.pairwise_reverse]
    exact (List.pairwise_mergeSort trans_severity total_severity _).imp of_decide_eq_true
  · have hstable := ofSeverity_mergeSort trans_severity total_severity
      (fun _ _ => le_of_severity_eq) analysis.issues.reverse severity
    rw [ofSeverity_bySeverity, ofSeverity_reverse, hstable, ofSeverity_reverse,
      List.reverse_reverse]

end Analysis
end DiffReview
