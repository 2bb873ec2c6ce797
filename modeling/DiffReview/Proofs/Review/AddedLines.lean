import DiffReview.Proofs.Review.Suggestions
import DiffReview.Proofs.Traversal

/-!
# Added lines

The built-in rules see nothing of a file but its name, its language and its added lines. All else
can be taken away from a file: no check notices, so neither does a step through the file, nor a run.
Files that have the same added lines become equal once all else is taken away, and so there is one
analysis for both.
-/

namespace DiffReview

variable {ρ ε : Type}

namespace FileChange

variable {f g : FileChange}

/-- A file of which nothing is kept but its name, its language and its added lines. -/
def onlyAdded (file : FileChange) : FileChange where
  filename := file.filename
  oldFilename := none
  status := .modified
  language := file.language
  binary := false
  changes := file.added

@[simp] theorem added_onlyAdded (file : FileChange) : file.onlyAdded.added = file.added := by
  rw [added, onlyAdded, added, List.filter_filter]
  simp only [Bool.and_self]

@[simp] theorem additions_onlyAdded (file : FileChange) :
    file.onlyAdded.additions = file.additions := by
  rw [additions_eq_length_added, added_onlyAdded, additions_eq_length_added]

/-- Two files with the same name, the same language and the same added lines. -/
structure SameAdded (f g : FileChange) : Prop where
  filename : f.filename = g.filename
  language : f.language = g.language
  added : f.added.map (fun line => (line.content, line.lineNumber)) =
    g.added.map fun line => (line.content, line.lineNumber)

/-- An added line is told by its content and its number. -/
theorem map_added (file : FileChange) :
    (file.added.map fun line => (line.content, line.lineNumber)).map
      (fun line => (⟨.added, line.1, line.2⟩ : Change)) = file.added := by
  have hline : ∀ line ∈ file.added, (⟨.added, line.content, line.lineNumber⟩ : Change) = line := by
    intro line hline
    have hkind : line.kind = .added := of_decide_eq_true (List.mem_filter.1 hline).2
    rw [← hkind]
  rw [List.map_map]
  exact (List.map_congr_left hline).trans (List.map_id _)

theorem SameAdded.onlyAdded_eq (h : f.SameAdded g) : f.onlyAdded = g.onlyAdded := by
  have hadded : f.added = g.added := by rw [← map_added f, h.added, map_added]
  rw [onlyAdded, onlyAdded, h.filename, h.language, hadded]

end FileChange

/-- A check that sees nothing of a file but its name, its language and its added lines. -/
def Check.SeesAdded (check : Check ε) : Prop :=
  ∀ file, check.findings file.onlyAdded = check.findings file

/-- The built-in rules see nothing else. -/
theorem WordedRule.seesAdded_check (rule : WordedRule) : rule.check.SeesAdded := by
  intro file
  cases rule with
  | large locale threshold =>
    simp only [check, FileChange.additions_onlyAdded]
    rfl
  | lines rules =>
    simp only [check, FileChange.added_onlyAdded]
    rfl

namespace Checklist

variable (list : Checklist ρ) {check : ρ → Check ε} {xs ys : List FileChange}

/-- A step through a file sees no more of it than the checks see. -/
theorem fill_onlyAdded (h : ∀ rule, (check rule).SeesAdded) (sofar : Analysis)
    (file : FileChange) : list.fill check sofar file.onlyAdded = list.fill check sofar file := by
  have hcheck (rule : ρ) (sofar : Analysis) :
      (check rule).fill file.onlyAdded sofar = (check rule).fill file sofar := by
    rw [Check.fill, h rule file, Check.fill]
  rw [fill, fill]
  simp only [hcheck]
  -- the language is kept, so the same rules and fixed suggestions are looked up
  rfl

theorem run_map_onlyAdded (h : ∀ rule, (check rule).SeesAdded) (files : List FileChange) :
    list.run check (files.map FileChange.onlyAdded) = list.run check files := by
  rw [run, List.foldlM_map]
  simp only [list.fill_onlyAdded h]
  rfl

/-- Files with the same added lines make the same of a checklist, or the same check fails. -/
theorem run_eq_of_sameAdded (h : ∀ rule, (check rule).SeesAdded)
    (hfiles : List.Forall₂ FileChange.SameAdded xs ys) : list.run check xs = list.run check ys := by
  have hkept : xs.map FileChange.onlyAdded = ys.map FileChange.onlyAdded :=
    map_eq_of_forall₂ (hfiles.imp fun _ _ h => h.onlyAdded_eq)
  rw [← list.run_map_onlyAdded h xs, hkept, list.run_map_onlyAdded h ys]

end Checklist

/-- The analyses of files with the same added lines are equal. -/
theorem Engine.evaluate_eq_of_sameAdded (engine : Engine) {xs ys : List FileChange}
    (h : List.Forall₂ FileChange.SameAdded xs ys) : engine.evaluate xs = engine.evaluate ys := by
  have hrun := engine.checklist.run_eq_of_sameAdded WordedRule.seesAdded_check h
  rw [engine.run_checklist, engine.run_checklist] at hrun
  exact Except.ok.inj hrun

end DiffReview
