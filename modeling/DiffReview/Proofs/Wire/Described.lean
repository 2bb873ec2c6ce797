import DiffReview.Proofs.Wire.Steady
import DiffReview.Proofs.Wire.Tallies

/-!
# The contract describes the records

The contract of the service and the records are two accounts of one format. A value whose numbers
are integers keeps the contract, and gives the totals that its parts add up to, exactly if it is
the written form of a record up to the order of fields. Reading gives this record, and writing a
record that was read gives the value back.
-/

namespace DiffReview

open Json Schema

namespace Contract

variable {v : Json}

/-- Items that are each the like of a written form are so together. -/
theorem exists_items {α : Type} {write : α → Json} {vs : List Json}
    (h : ∀ v ∈ vs, ∃ a, v.Alike (write a)) :
    ∃ as : List α, List.Forall₂ Alike vs (as.map write) := by
  induction vs with
  | nil => exact ⟨[], .nil⟩
  | cons v vs ih =>
    rw [List.forall_mem_cons] at h
    obtain ⟨a, ha⟩ := h.1
    obtain ⟨as, has⟩ := ih h.2
    exact ⟨a :: as, .cons ha has⟩

theorem exists_change (hv : v.isIntegral) (h : change.accepts v) :
    ∃ c : Change, v.Alike c.toJson := by
  obtain ⟨fs, rfl, hf⟩ := accepts_object_iff.1 h
  obtain ⟨kind, hkind⟩ :=
    hf.exists_member "kind" ChangeKind.all ChangeKind.name (by simp) List.mem_cons_self
  obtain ⟨content, hcontent⟩ := hf.exists_text "content" (by simp) (by simp)
  obtain ⟨lineNumber, hline⟩ := hf.exists_optional_positive hv "lineNumber" (by simp)
  refine ⟨⟨kind, content, lineNumber⟩, alike_of_accepts h (Change.accepts_toJson _) ?_⟩
  simp [Change.toJson, hkind, hcontent, hline]

theorem exists_finding (hv : v.isIntegral) (h : finding.accepts v) :
    ∃ f : Finding, v.Alike f.toJson := by
  obtain ⟨fs, rfl, hf⟩ := accepts_object_iff.1 h
  obtain ⟨filename, hfilename⟩ := hf.exists_text "filename" (by simp) (by simp)
  obtain ⟨lineNumber, hline⟩ := hf.exists_optional_positive hv "lineNumber" (by simp)
  obtain ⟨severity, hseverity⟩ := hf.exists_member "severity" Severity.all Severity.name
    (by simp) (by simp [Severity.all, Severity.name])
  obtain ⟨message, hmessage⟩ := hf.exists_text "message" (by simp) (by simp)
  obtain ⟨type, htype⟩ := hf.exists_member "type" IssueType.all IssueType.name
    (by simp) (by simp [IssueType.all, IssueType.name])
  refine ⟨⟨filename, lineNumber, severity, message, type⟩,
    alike_of_accepts h (Finding.accepts_toJson _) ?_⟩
  simp [Finding.toJson, hfilename, hline, hseverity, hmessage, htype]

theorem exists_analysis (hv : v.isIntegral) (h : analysis.accepts v) :
    ∃ a : Analysis, a.suggestions.Nodup ∧ v.Alike a.toJson := by
  obtain ⟨fs, rfl, hf⟩ := accepts_object_iff.1 h
  obtain ⟨vs, hvs, hvok, -⟩ := hf.exists_array hv "issues" finding false (by simp) (by simp)
  obtain ⟨issues, hissues⟩ := exists_items fun v hv => exists_finding (hvok v hv).1 (hvok v hv).2
  obtain ⟨ws, hws, hwok, hd⟩ := hf.exists_array hv "suggestions" .string true (by simp) (by simp)
  obtain ⟨suggestions, hsuggestions⟩ : ∃ ss : List String, List.Forall₂ Alike ws (ss.map .str) :=
    exists_items fun w hw => by
      obtain ⟨s, rfl⟩ := accepts_string_iff.1 (hwok w hw).2
      exact ⟨s, .refl _⟩
  obtain rfl : ws = suggestions.map .str :=
    eq_of_alike_of_accepts_string hsuggestions (by simp)
  have hnodup : suggestions.Nodup := (hd rfl).of_map _
  refine ⟨⟨issues, suggestions⟩, hnodup, alike_of_accepts h
    (Analysis.accepts_toJson_iff.2 hnodup) ?_⟩
  simpa [Analysis.toJson, hvs, hws] using Alike.arr hissues

theorem exists_file (hv : v.isIntegral) (h : fileChange.accepts v) (ht : TalliesFile v) :
    ∃ file : FileChange, v.Alike file.toJson := by
  obtain ⟨fs, rfl, hf⟩ := accepts_object_iff.1 h
  obtain ⟨filename, hfilename⟩ := hf.exists_text "filename" (by simp) (by simp)
  obtain ⟨oldFilename, hold⟩ := hf.exists_optional_text "oldFilename" (by simp)
  obtain ⟨status, hstatus⟩ := hf.exists_member "status" FileStatus.all FileStatus.name
    (by simp) (by simp [FileStatus.all, FileStatus.name])
  obtain ⟨language, hlanguage⟩ := hf.exists_text "language" (by simp) (by simp)
  obtain ⟨binary, hbinary⟩ := hf.exists_truth "binary" (by simp) (by simp)
  obtain ⟨vs, hvs, hvok, -⟩ := hf.exists_array hv "changes" change false (by simp) (by simp)
  obtain ⟨changes, hchanges⟩ := exists_items fun v hv => exists_change (hvok v hv).1 (hvok v hv).2
  let file : FileChange := ⟨filename, oldFilename, status, language, binary, changes⟩
  -- The value counts its own changes, and these are like those of the file.
  have hcount : ∀ kind, changesOf kind (.obj fs) = file.count kind := fun kind => by
    rw [← changesOf_toJson, changesOf_eq]
    simpa [items, hvs, file, FileChange.toJson] using hchanges
  have hadditions : field? fs "additions" = some (.nat file.additions) :=
    (hcount .added ▸ ht.additions :)
  have hdeletions : field? fs "deletions" = some (.nat file.deletions) :=
    (hcount .removed ▸ ht.deletions :)
  refine ⟨file, alike_of_accepts h file.accepts_toJson ?_⟩
  simpa [file, FileChange.toJson, hfilename, hold, hstatus, hlanguage, hbinary, hvs, hadditions,
    hdeletions] using Alike.arr hchanges

theorem exists_diff (hv : v.isIntegral) (h : parsedDiff.accepts v) (ht : TalliesDiff v) :
    ∃ diff : ParsedDiff, v.Alike diff.toJson := by
  obtain ⟨fs, rfl, hf⟩ := accepts_object_iff.1 h
  obtain ⟨vs, hvs, hvok, -⟩ := hf.exists_array hv "files" fileChange false (by simp) (by simp)
  obtain ⟨s, hs, hsok⟩ := hf.exists_given "summary" summary (by simp) (by simp)
  have hitems : items (.obj fs) "files" = vs := by simp [items, hvs]
  obtain ⟨files, hfiles⟩ := exists_items fun v hv =>
    exists_file (hvok v hv).1 (hvok v hv).2 (ht.files v (hitems ▸ hv))
  let diff : ParsedDiff := ⟨files⟩
  have hcounts : ∀ kind, (items (.obj fs) "files").map (changesOf kind) =
      files.map fun file => file.count kind := fun kind => by
    rw [hitems, map_eq_of_forall₂ (hfiles.imp fun _ _ hf => changesOf_of_alike hf kind)]
    simp
  have hlength : (items (.obj fs) "files").length = files.length := by
    simpa [hitems] using hfiles.length_eq
  have htotal : ∀ name, total? (.obj fs) name = s.get? name := fun name => by simp [total?, hs]
  have htotalFiles : s.get? "totalFiles" = some (.nat diff.summary.totalFiles) := by
    rw [← htotal, ht.totalFiles, hlength]
    rfl
  have htotalAdditions : s.get? "totalAdditions" = some (.nat diff.summary.totalAdditions) := by
    rw [← htotal, ht.totalAdditions, hcounts]
    rfl
  have htotalDeletions : s.get? "totalDeletions" = some (.nat diff.summary.totalDeletions) := by
    rw [← htotal, ht.totalDeletions, hcounts]
    rfl
  have hsummary : s.Alike diff.summary.toJson := by
    refine alike_of_accepts hsok diff.summary.accepts_toJson ?_
    simp [Summary.toJson, htotalFiles, htotalAdditions, htotalDeletions]
  refine ⟨diff, alike_of_accepts h diff.accepts_toJson ?_⟩
  simpa [diff, ParsedDiff.toJson, hvs, hs] using ⟨Alike.arr hfiles, hsummary⟩

theorem exists_review (hv : v.isIntegral) (h : review.accepts v) (ht : TalliesReview v) :
    ∃ r : Review, r.analysis.suggestions.Nodup ∧ v.Alike r.toJson := by
  obtain ⟨fs, rfl, hf⟩ := accepts_object_iff.1 h
  obtain ⟨d, hd, hdok⟩ := hf.exists_given "diff" parsedDiff (by simp) (by simp)
  obtain ⟨a, ha, haok⟩ := hf.exists_given "analysis" analysis (by simp) (by simp)
  obtain ⟨_, hd', ht⟩ := ht
  obtain rfl := Option.some.inj (hd.symm.trans hd')
  obtain ⟨diff, hdiff⟩ := exists_diff (isIntegral_of_field? hv hd) hdok ht
  obtain ⟨analysis, hnodup, hanalysis⟩ := exists_analysis (isIntegral_of_field? hv ha) haok
  refine ⟨⟨diff, analysis⟩, hnodup, alike_of_accepts h (Review.accepts_toJson hnodup) ?_⟩
  simpa [Review.toJson, hd, ha] using ⟨hdiff, hanalysis⟩

end Contract

/-- A schema, with a condition on what is counted twice, describes the records that are kept: the
values of this form are the written forms of these records up to the order of fields, and reading
and writing are inverse to each other between them. -/
structure Describes {α : Type} (schema : Schema) (tallies : Json → Prop) (kept : α → Prop)
    (write : α → Json) (read : Json → Checked α) : Prop where
  form : ∀ v : Json, v.isIntegral →
    (schema.accepts v ∧ tallies v ↔ ∃ a, kept a ∧ v.Alike (write a))
  decode : ∀ (v : Json) (a : α), v.Alike (write a) → read v = .ok a
  encode : ∀ (v : Json) (a : α), v.isIntegral → schema.accepts v → tallies v → read v = .ok a →
    v.Alike (write a)

namespace Contract

/-- A schema describes records whose written forms it accepts and tallies, and which are the only
ones to have forms that it accepts and tallies. -/
theorem describes_of {α : Type} {schema : Schema} {tallies : Json → Prop} {kept : α → Prop}
    {write : α → Json} {read : Json → Checked α} (hschema : schema.comparesStrings)
    (haccepts : ∀ a, kept a → schema.accepts (write a))
    (htallies : ∀ a, tallies (write a))
    (halike : ∀ {v w : Json}, v.Alike w → tallies w → tallies v)
    (hread : ∀ a, read (write a) = .ok a) (hsteady : Steady read)
    (hexists : ∀ {v : Json}, v.isIntegral → schema.accepts v → tallies v →
      ∃ a, kept a ∧ v.Alike (write a)) : Describes schema tallies kept write read where
  form := fun v hv =>
    ⟨fun h => hexists hv h.1 h.2, fun ⟨a, hk, ha⟩ =>
      ⟨accepts_of_alike hschema ha (haccepts a hk), halike ha (htallies a)⟩⟩
  decode := fun _ a ha => hsteady ha (hread a)
  encode := fun v a hv h ht hr => by
    obtain ⟨b, -, hb⟩ := hexists hv h ht
    obtain rfl : b = a := by simpa [hsteady hb (hread b)] using hr
    exact hb

/-- The schemas of the contract describe the analyses without repeated suggestions, the parsed
diffs, and the reviews whose analysis is such a one. -/
theorem describes :
    Describes Contract.analysis (fun _ => True) (fun a : Analysis => a.suggestions.Nodup)
      Analysis.toJson Analysis.read ∧
    Describes Contract.parsedDiff TalliesDiff (fun _ : ParsedDiff => True)
      ParsedDiff.toJson ParsedDiff.read ∧
    Describes Contract.review TalliesReview (fun r : Review => r.analysis.suggestions.Nodup)
      Review.toJson Review.read := by
  refine ⟨describes_of rfl ?_ ?_ ?_ Analysis.read_toJson Analysis.steady_read ?_,
    describes_of rfl ?_ TalliesDiff.toJson .of_alike ParsedDiff.read_toJson
      ParsedDiff.steady_read ?_,
    describes_of rfl ?_ TalliesReview.toJson .of_alike Review.read_toJson Review.steady_read ?_⟩
  · exact fun a ha => Analysis.accepts_toJson_iff.2 ha
  · exact fun _ => trivial
  · exact fun _ _ => trivial
  · exact fun hv h _ => exists_analysis hv h
  · exact fun diff _ => diff.accepts_toJson
  · intro v hv h ht
    obtain ⟨diff, hd⟩ := exists_diff hv h ht
    exact ⟨diff, trivial, hd⟩
  · exact fun r hr => Review.accepts_toJson hr
  · exact fun hv h ht => exists_review hv h ht

/-- A diff of one file, with its fields in an order in which they are not written. -/
def shuffled : Json :=
  .obj
    [("summary", .obj
      [("totalDeletions", .nat 0), ("totalFiles", .nat 1), ("totalAdditions", .nat 1)]),
     ("files", .arr [.obj
      [("changes", .arr [.obj
        [("lineNumber", .nat 3), ("kind", .str "added"), ("content", .str "x = 1")]]),
       ("additions", .nat 1), ("deletions", .nat 0), ("binary", .bool false),
       ("language", .str "Python"), ("status", .str "modified"), ("filename", .str "a.py")]])]

/-- The diff that `shuffled` describes. -/
def unshuffled : ParsedDiff :=
  ⟨[⟨"a.py", none, .modified, "Python", false, [⟨.added, "x = 1", some 3⟩]⟩]⟩

/-- A value whose fields are in another order is the written form of the diff that it is read
as. -/
theorem describes_shuffled :
    (shuffled.isIntegral ∧ Contract.parsedDiff.accepts shuffled ∧ TalliesDiff shuffled) ∧
    ParsedDiff.read shuffled = .ok unshuffled ∧ shuffled.Alike unshuffled.toJson ∧
    shuffled ≠ unshuffled.toJson := by
  have hintegral : shuffled.isIntegral := by decide
  have haccepts : Contract.parsedDiff.accepts shuffled := by decide
  have htallies : TalliesDiff shuffled := by decide
  exact ⟨⟨hintegral, haccepts, htallies⟩, rfl,
    describes.2.1.encode shuffled unshuffled hintegral haccepts htallies rfl, by decide⟩

end Contract
end DiffReview
