import DiffReview.Diff.FileChange
import DiffReview.Review.Finding

/-!
# Checklists

A checklist holds rules of any kind, by language and for every file. A check tells what a rule does:
what it finds in one file, and what it suggests upon these findings. Both may fail. The files are
gone through in order, and for each file its rules, those of its language before the common ones.
All of them fill one analysis: findings go to its end, and so do suggestions that have not been
made before. The fixed suggestions of a language come before those of any rule.
-/

namespace DiffReview

variable {ρ ε : Type}

/-- What a rule finds in a file, and what it suggests upon these findings. -/
structure Check (ε : Type) where
  findings : FileChange → Except ε (List Finding)
  suggestions : List Finding → Except ε (List String)

/-- The rules for a language, and suggestions made for every file in it. -/
structure Chapter (ρ : Type) where
  rules : List ρ
  suggestions : List String

/-- Rules by language, and rules for every file. -/
structure Checklist (ρ : Type) where
  /-- Languages and their chapters; the first entry of a language counts. -/
  chapters : List (String × Chapter ρ)
  common : List ρ

namespace Analysis

/-- The analysis of no files. -/
def blank : Analysis := ⟨[], []⟩

def report (sofar : Analysis) (findings : List Finding) : Analysis :=
  { sofar with issues := sofar.issues ++ findings }

/-- Makes a suggestion, unless it has been made before. -/
def suggest (sofar : Analysis) (s : String) : Analysis :=
  if s ∈ sofar.suggestions then sofar
  else { sofar with suggestions := sofar.suggestions ++ [s] }

end Analysis

/-- Takes into an analysis what a check makes of a file. -/
def Check.fill (check : Check ε) (file : FileChange) (sofar : Analysis) : Except ε Analysis := do
  let findings ← check.findings file
  let suggestions ← check.suggestions findings
  return suggestions.foldl Analysis.suggest (sofar.report findings)

namespace Checklist

/-- The chapter for a file, if its language has one. -/
def chapter? (list : Checklist ρ) (file : FileChange) : Option (Chapter ρ) :=
  list.chapters.lookup file.language

/-- The rules that apply to a file, in order. -/
def rules (list : Checklist ρ) (file : FileChange) : List ρ :=
  (list.chapter? file).elim [] Chapter.rules ++ list.common

/-- The suggestions made for a file whatever its rules find. -/
def fixed (list : Checklist ρ) (file : FileChange) : List String :=
  (list.chapter? file).elim [] Chapter.suggestions

/-- Takes a file into an analysis. -/
def fill (list : Checklist ρ) (check : ρ → Check ε) (sofar : Analysis) (file : FileChange) :
    Except ε Analysis :=
  (list.rules file).foldlM (fun sofar rule => (check rule).fill file sofar)
    ((list.fixed file).foldl Analysis.suggest sofar)

/-- The analysis of files, unless a check fails. -/
def run (list : Checklist ρ) (check : ρ → Check ε) (files : List FileChange) :
    Except ε Analysis :=
  files.foldlM (list.fill check) .blank

end Checklist
end DiffReview
