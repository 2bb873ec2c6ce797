import DiffReview.Proofs.Review.Issues
import DiffReview.Proofs.Traversal

/-!
# Limits

One engine relaxes another when they differ at most in their limits and those of the first are the
higher ones. Rule by rule a higher limit only loses findings that the limit decides on; the others
stay, and all of them keep their order. A suggestion comes with a finding or does not depend on
limits, so none is new, although the suggestions that are left may come in another order.
-/
namespace DiffReview

namespace Finding

/-- A finding that a limit decides on: that a change is large, or that code is commented out. -/
def isLimited (finding : Finding) : Bool :=
  finding.type = .codeReviewPractice || finding.type = .codeQuality

/-- The first findings are those of the second list in their order, where only findings may be
missing that a limit decides on. -/
structure Fewer (lax strict : List Finding) : Prop where
  sublist : lax.Sublist strict
  unlimited : lax.filter (!·.isLimited) = strict.filter (!·.isLimited)

namespace Fewer

theorem refl (findings : List Finding) : Fewer findings findings where
  sublist := .refl findings
  unlimited := rfl

theorem append {lax strict lax' strict' : List Finding} (h : Fewer lax strict)
    (h' : Fewer lax' strict') : Fewer (lax ++ lax') (strict ++ strict') where
  sublist := h.sublist.append h'.sublist
  unlimited := by rw [List.filter_append, List.filter_append, h.unlimited, h'.unlimited]

/-- A finding that a limit decides on is missing where its condition does not hold. -/
theorem onlyIf {p q : Prop} [Decidable p] [Decidable q] {finding : Finding} (h : p → q)
    (hl : finding.isLimited = true) : Fewer (onlyIf p finding) (onlyIf q finding) := by
  unfold Finding.onlyIf
  by_cases hp : p
  · rw [if_pos hp, if_pos (h hp)]
    exact refl [finding]
  · rw [if_neg hp]
    split
    · exact ⟨List.nil_sublist _, by simp [hl]⟩
    · exact refl []

theorem flatMap {α β : Type} {R : α → β → Prop} {f : α → List Finding} {g : β → List Finding}
    (hfg : ∀ {a b}, R a b → Fewer (f a) (g b)) {as : List α} {bs : List β}
    (h : List.Forall₂ R as bs) : Fewer (as.flatMap f) (bs.flatMap g) := by
  induction h with
  | nil => exact refl []
  | cons h _ ih =>
    rw [List.flatMap_cons, List.flatMap_cons]
    exact (hfg h).append ih

/-- Findings made piece by piece are fewer when those of each piece are. -/
theorem flatMap_same {α : Type} {f g : α → List Finding} (h : ∀ a, Fewer (f a) (g a))
    (as : List α) : Fewer (as.flatMap f) (as.flatMap g) :=
  flatMap (R := Eq) (fun {a _} he => he ▸ h a) (List.forall₂_refl as)

end Fewer
end Finding

/-- The first line rule is the second, with a limit that is at least as high. -/
inductive LineRule.Relaxes : LineRule → LineRule → Prop
  | same (rule : LineRule) : Relaxes rule rule
  | commentedCode {strict lax : Int} (h : strict ≤ lax) :
      Relaxes (.commentedCode lax) (.commentedCode strict)

/-- The first rule is the second, with limits that are at least as high. -/
inductive Rule.Relaxes : Rule → Rule → Prop
  | large {strict lax : Int} (h : strict ≤ lax) : Relaxes (.large lax) (.large strict)
  | lines {strict lax : List LineRule} (h : List.Forall₂ LineRule.Relaxes lax strict) :
      Relaxes (.lines lax) (.lines strict)

theorem LineRule.Relaxes.fewer_check {lax strict : LineRule} (h : lax.Relaxes strict)
    (locale : Locale) (filename : String) (change : Change) :
    Finding.Fewer (lax.check locale filename change).toList
      (strict.check locale filename change).toList := by
  cases h with
  | same => exact .refl _
  | commentedCode h =>
    rw [toList_check _ isMatch_commentedCode, toList_check _ isMatch_commentedCode]
    refine .onlyIf ?_ rfl
    rintro ⟨hbegins, hlength⟩
    exact ⟨hbegins, by omega⟩

namespace Rule.Relaxes

variable {lax strict : Rule}

theorem fewer_evaluate (h : lax.Relaxes strict) (locale : Locale) (file : FileChange) :
    Finding.Fewer (lax.evaluate locale file) (strict.evaluate locale file) := by
  cases h with
  | large h =>
    rw [evaluate_large, evaluate_large]
    exact .onlyIf (fun hexceeded => by omega) rfl
  | lines h =>
    simp only [evaluate, List.filterMap_eq_flatMap_toList]
    exact .flatMap_same (fun change => .flatMap
      (fun h => h.fewer_check locale file.filename change) h) file.added

/-- What is suggested upon findings that are fewer is suggested upon all of them. -/
theorem suggestions_subset (h : lax.Relaxes strict) (locale : Locale) (file : FileChange) :
    lax.suggestions locale (lax.evaluate locale file) ⊆
      strict.suggestions locale (strict.evaluate locale file) := by
  have hsublist := (h.fewer_evaluate locale file).sublist
  cases h with
  | lines => exact List.Subset.refl _
  | large h =>
    simp only [suggestions]
    split
    · exact List.nil_subset _
    · rename_i hne
      rw [if_neg]
      · exact List.Subset.refl _
      · intro hnone
        rw [hnone] at hsublist
        exact hne (List.sublist_nil.1 hsublist)

end Rule.Relaxes

namespace Engine

/-- The first engine is the second, with limits that are at least as high. -/
structure Relaxes (lax strict : Engine) : Prop where
  locale : lax.locale = strict.locale
  rules (file : FileChange) : List.Forall₂ Rule.Relaxes (lax.rules file) (strict.rules file)
  fixed (file : FileChange) : (lax.ruleSet? file).elim [] RuleSet.suggestions =
    (strict.ruleSet? file).elim [] RuleSet.suggestions

namespace Relaxes

variable {lax strict : Engine}

theorem fewer_issues (h : lax.Relaxes strict) (files : List FileChange) :
    Finding.Fewer (lax.evaluate files).issues (strict.evaluate files).issues := by
  rw [issues_evaluate, issues_evaluate]
  refine .flatMap_same (fun file => ?_) files
  rw [issues, issues, h.locale]
  exact .flatMap (fun hrule => hrule.fewer_evaluate strict.locale file) (h.rules file)

theorem contributions_subset (h : lax.Relaxes strict) (file : FileChange) :
    lax.contributions file ⊆ strict.contributions file := by
  intro s hs
  rw [contributions, h.fixed, h.locale, List.mem_append] at hs
  rw [contributions, List.mem_append]
  refine hs.imp_right fun hs => ?_
  obtain ⟨rule, hrule, hs⟩ := List.mem_flatMap.1 hs
  obtain ⟨rule', hrule', hrelaxes⟩ := exists_of_forall₂_of_mem (h.rules file) hrule
  exact List.mem_flatMap.2 ⟨rule', hrule', hrelaxes.suggestions_subset strict.locale file hs⟩

theorem suggestions_subset (h : lax.Relaxes strict) (files : List FileChange) :
    (lax.evaluate files).suggestions ⊆ (strict.evaluate files).suggestions := by
  intro s hs
  rw [suggestions_evaluate, List.mem_eraseDups, List.mem_flatMap] at hs ⊢
  obtain ⟨file, hfile, hs⟩ := hs
  exact ⟨file, hfile, h.contributions_subset file hs⟩

end Relaxes

/-- The engines with the built-in rules relax each other by their limits. -/
theorem relaxes_standard (locale : Locale) {threshold threshold' minLength minLength' : Int}
    (ht : threshold ≤ threshold') (hm : minLength ≤ minLength') :
    (standard locale threshold' minLength').Relaxes (standard locale threshold minLength) where
  locale := rfl
  rules file := by
    have hlarge : List.Forall₂ Rule.Relaxes [.large threshold'] [.large threshold] :=
      .cons (.large ht) .nil
    rw [rules, rules, ruleSet?_standard, ruleSet?_standard]
    refine List.rel_append ?_ hlarge
    split_ifs
    · exact .cons (.lines (.cons (.same _) (.cons (.same _) (.cons (.commentedCode hm) .nil)))) .nil
    · exact .cons (.lines (.cons (.same _) (.cons (.same _) .nil))) .nil
    · exact .nil
  fixed file := by
    rw [ruleSet?_standard, ruleSet?_standard]
    split_ifs <;> rfl

end Engine

namespace Config

/-- Higher limits only take away: of the issues such that a limit decides on, and of the
suggestions some. What is left of the issues is in order. -/
theorem fewer_of_limits (config : Config) (locale : Locale)
    {threshold threshold' minLength minLength' : Int} (ht : threshold ≤ threshold')
    (hm : minLength ≤ minLength') (files : List FileChange) :
    ∃ strict lax, config.engine ⟨some locale.name, some threshold, some minLength⟩ = .ok strict ∧
      config.engine ⟨some locale.name, some threshold', some minLength'⟩ = .ok lax ∧
      (lax.evaluate files).issues.Sublist (strict.evaluate files).issues ∧
      (lax.evaluate files).issues.filter (!·.isLimited) =
        (strict.evaluate files).issues.filter (!·.isLimited) ∧
      (lax.evaluate files).suggestions ⊆ (strict.evaluate files).suggestions := by
  have hengine (threshold minLength : Int) :
      config.engine ⟨some locale.name, some threshold, some minLength⟩ =
        .ok (.standard locale threshold minLength) := by
    have hname : locale.name ≠ "" := by cases locale <;> decide
    simp [engine, EngineOptions.localeName, hname]
  have hrelaxes := Engine.relaxes_standard locale ht hm
  obtain ⟨hsublist, hunlimited⟩ := hrelaxes.fewer_issues files
  exact ⟨_, _, hengine _ _, hengine _ _, hsublist, hunlimited, hrelaxes.suggestions_subset files⟩

/-- A file with two added lines, the first of which is commented out. -/
def commentedFile : FileChange :=
  ⟨"a.js", none, .modified, "JavaScript", false,
    [⟨.added, "// console.log(x)", some 1⟩, ⟨.added, "y", some 2⟩]⟩

/-- Higher limits pass over the size of the file and its comment, and keep the call in it. -/
theorem fewer_of_limits_commented :
    (1 : Int) ≤ 2 ∧ (3 : Int) ≤ 50 ∧
    ((Engine.standard .en 1 3).evaluate [commentedFile]).issues.map (·.type) =
      [.debugCode, .codeQuality, .codeReviewPractice] ∧
    ((Engine.standard .en 2 50).evaluate [commentedFile]).issues.map (·.type) = [.debugCode] ∧
    ∃ strict lax, ({} : Config).engine ⟨some Locale.en.name, some 1, some 3⟩ = .ok strict ∧
      ({} : Config).engine ⟨some Locale.en.name, some 2, some 50⟩ = .ok lax ∧
      (lax.evaluate [commentedFile]).issues.Sublist (strict.evaluate [commentedFile]).issues ∧
      (lax.evaluate [commentedFile]).issues.filter (!·.isLimited) =
        (strict.evaluate [commentedFile]).issues.filter (!·.isLimited) ∧
      (lax.evaluate [commentedFile]).suggestions ⊆
        (strict.evaluate [commentedFile]).suggestions := by
  have ht : (1 : Int) ≤ 2 := by decide
  have hm : (3 : Int) ≤ 50 := by decide
  exact ⟨ht, hm, by decide +kernel, by decide +kernel, fewer_of_limits {} .en ht hm [commentedFile]⟩

end Config
end DiffReview
