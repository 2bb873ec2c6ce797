import DiffReview.Proofs.FirstPlaces
import DiffReview.Proofs.Traversal
import DiffReview.Review.Checklist
import DiffReview.Review.Engine
import Mathlib.Data.List.Perm.Basic

/-!
# Merging analyses

Two analyses are merged by putting the second behind the first, less the suggestions that the
first has made. Whatever goes through a checklist merges into the analysis so far what it would
make of nothing: this holds of one suggestion, one check, one file, and so of a run. So files may
be gone through at once, in parts or one by one, and their order only decides the order of what
is said.
-/

namespace DiffReview

variable {ρ ε α : Type}

namespace Analysis

/-- One analysis, then another one without the suggestions that have been made. -/
def merge (a b : Analysis) : Analysis where
  issues := a.issues ++ b.issues
  suggestions := a.suggestions ++ b.suggestions.filter (· ∉ a.suggestions)

@[simp] theorem issues_merge (a b : Analysis) : (a.merge b).issues = a.issues ++ b.issues := rfl

@[simp] theorem mem_suggestions_merge {a b : Analysis} {s : String} :
    s ∈ (a.merge b).suggestions ↔ s ∈ a.suggestions ∨ s ∈ b.suggestions := by
  by_cases h : s ∈ a.suggestions <;> simp [merge, h]

@[simp] theorem merge_blank (a : Analysis) : a.merge blank = a := by simp [merge, blank]

@[simp] theorem blank_merge (a : Analysis) : blank.merge a = a := by simp [merge, blank]

theorem merge_assoc (a b c : Analysis) : (a.merge b).merge c = a.merge (b.merge c) := by
  have hnew : c.suggestions.filter (· ∉ (a.merge b).suggestions) =
      (c.suggestions.filter (· ∉ b.suggestions)).filter (· ∉ a.suggestions) := by
    rw [List.filter_filter]
    refine List.filter_congr fun s _ => ?_
    simp
  refine congrArg₂ mk (List.append_assoc _ _ _) ?_
  rw [hnew]
  simp only [merge, List.filter_append, List.append_assoc]

/-- The analysis of issues and of offers, of which each makes a suggestion when it is first
made. -/
def ofOffers (issues : List Finding) (offers : List String) : Analysis := ⟨issues, offers.eraseDups⟩

@[simp] theorem ofOffers_nil : ofOffers [] [] = blank := rfl

theorem merge_ofOffers (issues issues' : List Finding) (offers offers' : List String) :
    (ofOffers issues offers).merge (ofOffers issues' offers') =
      ofOffers (issues ++ issues') (offers ++ offers') := by
  simp only [merge, ofOffers, eraseDups_append_eq_filter, List.mem_eraseDups]

theorem suggest_eq_merge (sofar : Analysis) (s : String) :
    sofar.suggest s = sofar.merge (ofOffers [] [s]) := by
  by_cases h : s ∈ sofar.suggestions <;> simp [suggest, merge, ofOffers, List.eraseDups_cons, h]

/-- Offers are taken into an analysis by merging them. -/
theorem foldl_suggest (sofar : Analysis) (offers : List String) :
    offers.foldl suggest sofar = sofar.merge (ofOffers [] offers) := by
  induction offers generalizing sofar with
  | nil => simp
  | cons s offers ih =>
    rw [List.foldl_cons, ih, suggest_eq_merge, merge_assoc, merge_ofOffers]
    rfl

theorem foldl_suggest_report (sofar : Analysis) (findings : List Finding) (offers : List String) :
    offers.foldl suggest (sofar.report findings) = sofar.merge (ofOffers findings offers) := by
  have hreport : sofar.report findings = sofar.merge (ofOffers findings []) := by
    simp [report, merge, ofOffers]
  rw [foldl_suggest, hreport, merge_assoc, merge_ofOffers, List.append_nil, List.nil_append]

/-- A step merges into every analysis what it makes of nothing. -/
def Adds (step : Analysis → Except ε Analysis) : Prop :=
  ∀ a, step a = (step blank).map a.merge

namespace Adds

theorem bind {step next : Analysis → Except ε Analysis} (h : Adds step) (hn : Adds next) :
    Adds fun a => step a >>= next := by
  intro a
  change (step a >>= next) = (step blank >>= next).map a.merge
  rw [h a]
  cases step blank with
  | error e => rfl
  | ok b =>
    change next (a.merge b) = (next b).map a.merge
    rw [hn (a.merge b), hn b]
    cases next blank with
    | error e => rfl
    | ok c => exact congrArg Except.ok (merge_assoc a b c)

theorem foldlM {step : Analysis → α → Except ε Analysis} (h : ∀ x, Adds fun a => step a x)
    (xs : List α) : Adds fun a => xs.foldlM step a := by
  induction xs with
  | nil =>
    intro a
    exact congrArg Except.ok (merge_blank a).symm
  | cons x xs ih =>
    simp only [List.foldlM_cons]
    exact (h x).bind ih

end Adds

/-- Steps that never fail add up, whatever they add. -/
theorem foldlM_ofOffers {step : Analysis → α → Except ε Analysis} {issues : α → List Finding}
    {offers : α → List String}
    (h : ∀ a x, step a x = .ok (a.merge (ofOffers (issues x) (offers x)))) (a : Analysis)
    (xs : List α) :
    xs.foldlM step a = .ok (a.merge (ofOffers (xs.flatMap issues) (xs.flatMap offers))) := by
  induction xs generalizing a with
  | nil => exact congrArg Except.ok (merge_blank a).symm
  | cons x xs ih =>
    rw [List.foldlM_cons, h]
    refine (ih _).trans (congrArg Except.ok ?_)
    rw [merge_assoc, merge_ofOffers, List.flatMap_cons, List.flatMap_cons]

/-- Analyses are merged into one from its front or from its end. -/
theorem foldl_merge (a : Analysis) (parts : List Analysis) :
    parts.foldl merge a = a.merge (parts.foldl merge blank) := by
  induction parts generalizing a with
  | nil => simp
  | cons part parts ih => rw [List.foldl_cons, ih, List.foldl_cons, ih (blank.merge part),
      blank_merge, merge_assoc]

theorem issues_foldl_merge (parts : List Analysis) :
    (parts.foldl merge blank).issues = parts.flatMap issues := by
  induction parts with
  | nil => rfl
  | cons part parts ih => rw [List.foldl_cons, foldl_merge, issues_merge, ih, blank_merge,
      List.flatMap_cons]

theorem mem_suggestions_foldl_merge {parts : List Analysis} {s : String} :
    s ∈ (parts.foldl merge blank).suggestions ↔ ∃ part ∈ parts, s ∈ part.suggestions := by
  induction parts with
  | nil => simp [blank]
  | cons part parts ih => rw [List.foldl_cons, foldl_merge, mem_suggestions_merge, ih,
      blank_merge, List.exists_mem_cons_iff]

end Analysis

open Analysis

/-- An engine merges the analyses of the parts of its files. -/
theorem Engine.evaluate_append (engine : Engine) (xs ys : List FileChange) :
    engine.evaluate (xs ++ ys) = (engine.evaluate xs).merge (engine.evaluate ys) := by
  change ofOffers ((xs ++ ys).flatMap engine.issues) ((xs ++ ys).flatMap engine.contributions) = _
  rw [List.flatMap_append, List.flatMap_append, ← merge_ofOffers]
  rfl

namespace Check

/-- What a check makes of a file, once it has succeeded. -/
theorem fill_of_ok {check : Check ε} {file : FileChange} {findings : List Finding}
    {offers : List String} (hf : check.findings file = .ok findings)
    (ho : check.suggestions findings = .ok offers) (sofar : Analysis) :
    check.fill file sofar = .ok (sofar.merge (ofOffers findings offers)) := by
  rw [fill, hf]
  change (do let offers ← check.suggestions findings; _) = _
  rw [ho]
  exact congrArg Except.ok (foldl_suggest_report sofar findings offers)

theorem adds_fill (check : Check ε) (file : FileChange) : Adds (check.fill file) := by
  intro a
  cases hf : check.findings file with
  | error e => simp [fill, hf, bind, Except.bind, Except.map]
  | ok findings =>
    cases ho : check.suggestions findings with
    | error e => simp [fill, hf, ho, bind, Except.bind, Except.map]
    | ok offers =>
      rw [fill_of_ok hf ho, fill_of_ok hf ho, blank_merge]
      rfl

/-- What a check makes of every file, if it never fails. -/
def Gives (check : Check ε) (findings : FileChange → List Finding)
    (offers : FileChange → List String) : Prop :=
  ∀ file, check.findings file = .ok (findings file) ∧
    check.suggestions (findings file) = .ok (offers file)

end Check

namespace Checklist

variable (list : Checklist ρ) (check : ρ → Check ε)

theorem adds_fill (file : FileChange) : Adds fun sofar => list.fill check sofar file := by
  have hfixed : Adds fun sofar : Analysis =>
      (.ok ((list.fixed file).foldl suggest sofar) : Except ε Analysis) := by
    intro a
    refine congrArg Except.ok ?_
    rw [foldl_suggest a, foldl_suggest blank, blank_merge]
  have hrules := Adds.foldlM (fun rule => (check rule).adds_fill file) (list.rules file)
  exact hfixed.bind hrules

/-- Files are gone through in parts, and what is made of the parts is merged. -/
theorem run_append (xs ys : List FileChange) :
    list.run check (xs ++ ys) = do
      let a ← list.run check xs
      let b ← list.run check ys
      return a.merge b := by
  rw [run, List.foldlM_append]
  refine bind_congr fun a => ?_
  have hys : ys.foldlM (list.fill check) a = (list.run check ys).map a.merge :=
    Adds.foldlM (list.adds_fill check) ys a
  rw [hys]
  cases list.run check ys <;> rfl

/-- Files are gone through one by one, and what is made of each is merged. -/
theorem run_eq_foldl_merge (files : List FileChange) :
    list.run check files = do
      let parts ← files.mapM fun file => list.run check [file]
      return parts.foldl merge blank := by
  induction files with
  | nil => rfl
  | cons file files ih =>
    rw [← List.singleton_append, run_append, ih, List.singleton_append, List.mapM_cons]
    cases list.run check [file] with
    | error e => rfl
    | ok a =>
      cases files.mapM fun file => list.run check [file] with
      | error e => rfl
      | ok parts =>
        refine congrArg Except.ok ?_
        rw [List.foldl_cons, blank_merge, foldl_merge a]

variable {list check}

/-- The findings and the offers of rules that never fail, file by file and rule by rule. -/
theorem run_of_gives {findings : ρ → FileChange → List Finding}
    {offers : ρ → FileChange → List String}
    (h : ∀ rule, (check rule).Gives (findings rule) (offers rule)) (files : List FileChange) :
    list.run check files = .ok (ofOffers
      (files.flatMap fun file => (list.rules file).flatMap fun rule => findings rule file)
      (files.flatMap fun file =>
        list.fixed file ++ (list.rules file).flatMap fun rule => offers rule file)) := by
  rw [run, foldlM_ofOffers, blank_merge]
  intro sofar file
  have hrules := foldlM_ofOffers
    (fun sofar rule => Check.fill_of_ok (h rule file).1 (h rule file).2 sofar)
    (sofar.merge (ofOffers [] (list.fixed file))) (list.rules file)
  rw [fill, foldl_suggest, hrules, merge_assoc, merge_ofOffers]
  rfl

theorem run_eq_ok_iff {files : List FileChange} {a : Analysis} :
    list.run check files = .ok a ↔ ∃ parts,
      List.Forall₂ (fun file part => list.run check [file] = .ok part) files parts ∧
        parts.foldl merge blank = a := by
  rw [run_eq_foldl_merge, bind_eq_ok_iff]
  simp only [mapM_eq_ok_iff, pure, Except.pure, Except.ok.injEq]

/-- The order of the files decides nothing but the order of what is said. -/
theorem run_perm {xs ys : List FileChange} (h : xs.Perm ys) {a : Analysis}
    (ha : list.run check xs = .ok a) :
    ∃ b, list.run check ys = .ok b ∧ a.issues.Perm b.issues ∧
      ∀ s, s ∈ a.suggestions ↔ s ∈ b.suggestions := by
  obtain ⟨parts, hparts, rfl⟩ := run_eq_ok_iff.1 ha
  obtain ⟨parts', hparts', hperm⟩ := List.perm_comp_forall₂ h.symm hparts
  refine ⟨_, run_eq_ok_iff.2 ⟨parts', hparts', rfl⟩, ?_, fun s => ?_⟩
  · rw [issues_foldl_merge, issues_foldl_merge]
    exact hperm.symm.flatMap_right issues
  · simp only [mem_suggestions_foldl_merge, hperm.mem_iff]

/-- A checklist goes through files in parts, and one by one, as it goes through them at once: what
is made of the parts is merged, or the first failure is passed on. The order of the files decides
neither whether a check fails nor which findings and suggestions there are. If no check can fail,
there is an analysis. An engine merges its analyses in the same way. -/
theorem run_in_parts (list : Checklist ρ) (check : ρ → Check ε) (xs ys : List FileChange) :
    (list.run check (xs ++ ys) = do
      let a ← list.run check xs
      let b ← list.run check ys
      return a.merge b) ∧
    (list.run check xs = do
      let parts ← xs.mapM fun file => list.run check [file]
      return parts.foldl merge blank) ∧
    (xs.Perm ys → ∀ a, list.run check xs = .ok a → ∃ b, list.run check ys = .ok b ∧
      a.issues.Perm b.issues ∧ ∀ s, s ∈ a.suggestions ↔ s ∈ b.suggestions) ∧
    ((∀ rule, ∃ findings offers, (check rule).Gives findings offers) →
      ∃ a, list.run check xs = .ok a) ∧
    ∀ engine : Engine,
      engine.evaluate (xs ++ ys) = (engine.evaluate xs).merge (engine.evaluate ys) := by
  refine ⟨list.run_append check xs ys, list.run_eq_foldl_merge check xs,
    fun h a ha => run_perm h ha, fun h => ?_, fun engine => ?_⟩
  · choose findings offers hgives using h
    exact ⟨_, run_of_gives hgives xs⟩
  · exact engine.evaluate_append xs ys

/-- A check that finds all added lines and suggests a look at each of them. -/
def addedLines : Check Empty where
  findings file := .ok (file.added.map fun change =>
    ⟨file.filename, change.lineNumber, .info, change.content, .codeQuality⟩)
  suggestions findings := .ok (findings.map fun finding => "Look at " ++ finding.filename)

/-- Two looks at a file in Python, and one at any other file. -/
def twoLooks : Checklist Unit :=
  ⟨[("Python", ⟨[()], ["Format the code", "Format the code"]⟩)], [()]⟩

/-- A file in Python to which two lines are added. -/
def script : FileChange :=
  ⟨"a.py", none, .modified, "Python", false,
    [⟨.added, "x", some 1⟩, ⟨.removed, "y", some 1⟩, ⟨.added, "z", some 2⟩]⟩

/-- A file of which the language is not known. -/
def notes : FileChange := ⟨"notes", none, .added, "Unknown", false, [⟨.added, "w", none⟩]⟩

/-- Two files are gone through in parts and in the other order. -/
theorem run_in_parts_twoLooks :
    (∃ a b, twoLooks.run (fun _ => addedLines) [script] = .ok a ∧
      twoLooks.run (fun _ => addedLines) [notes] = .ok b ∧
      twoLooks.run (fun _ => addedLines) [script, notes] = .ok (a.merge b) ∧
      (a.merge b).suggestions = ["Format the code", "Look at a.py", "Look at notes"]) ∧
    [script, notes].Perm [notes, script] ∧
    ∃ a b, twoLooks.run (fun _ => addedLines) [script, notes] = .ok a ∧
      twoLooks.run (fun _ => addedLines) [notes, script] = .ok b ∧
      b.suggestions = ["Look at notes", "Format the code", "Look at a.py"] ∧
      a.issues.Perm b.issues ∧ ∀ s, s ∈ a.suggestions ↔ s ∈ b.suggestions := by
  have hgives : ∀ _ : Unit, ∃ findings offers, addedLines.Gives findings offers :=
    fun _ => ⟨_, _, fun _ => ⟨rfl, rfl⟩⟩
  have hperm : [script, notes].Perm [notes, script] := .swap _ _ _
  obtain ⟨happend, -⟩ := run_in_parts twoLooks (fun _ => addedLines) [script] [notes]
  obtain ⟨-, -, hswap, hboth, -⟩ :=
    run_in_parts twoLooks (fun _ => addedLines) [script, notes] [notes, script]
  refine ⟨⟨_, _, rfl, rfl, happend, by decide⟩, hperm, ?_⟩
  obtain ⟨a, ha⟩ := hboth hgives
  obtain ⟨b, hb, hissues, hsuggestions⟩ := hswap hperm a ha
  refine ⟨a, b, ha, hb, ?_, hissues, hsuggestions⟩
  cases hb
  decide

end Checklist
end DiffReview
