import DiffReview.Proofs.Wire.Fits
import DiffReview.Wire.Contract
import DiffReview.Wire.Decode
import DiffReview.Wire.Encode
import Mathlib.Data.List.Nodup

/-!
# Written forms

The written form of every record keeps the contract and is read back as the record. Only the
suggestions of an analysis have to be distinct for that; totals that are written along are passed
over.
-/

namespace DiffReview

open Wire Schema

@[simp] theorem Schema.accepts_oneOf_str (options : List String) (s : String) :
    accepts (.oneOf options) (.str s) = decide (s ∈ options) := by
  simp [accepts]

@[simp] theorem Schema.accepts_string_str (s : String) : accepts .string (.str s) = true := rfl

@[simp] theorem Schema.accepts_boolean_bool (b : Bool) : accepts .boolean (.bool b) = true := rfl

@[simp] theorem Schema.accepts_integer_nat (minimum : Int) (n : Nat) :
    accepts (.integer minimum) (.nat n) = decide (minimum ≤ n) := by
  simp [accepts, Json.nat]

@[simp] theorem Wire.readString_str (s : String) : readString (.str s) = .ok s := rfl

@[simp] theorem Wire.readOptionalString_str (s : String) :
    readOptionalString (.str s) = .ok (some s) := rfl

@[simp] theorem Wire.readBool_bool (b : Bool) : readBool (.bool b) = .ok b := rfl

@[simp] theorem Wire.readLineNumber_nat (n : LineNumber) :
    readLineNumber (.nat n.val) = .ok (some n) := by
  simp [readLineNumber, Json.nat, readInt, n.property]

/-- An array of written forms is accepted when each of them is. -/
theorem Schema.accepts_array_map {α : Type} {schema : Schema} {write : α → Json}
    (h : ∀ a, schema.accepts (write a)) (as : List α) :
    accepts (.array schema false) (.arr (as.map write)) :=
  accepts_array_iff.2 ⟨_, rfl, by simp [h], by simp⟩

theorem Schema.accepts_lineNumber (n : LineNumber) : accepts (.integer 1) (.nat n.val) := by
  have hn := n.property
  rw [accepts_integer_nat, decide_eq_true_eq]
  omega

namespace Change

theorem accepts_toJson (change : Change) : Contract.change.accepts change.toJson := by
  obtain ⟨kind, content, lineNumber⟩ := change
  have hkind : kind.name = "added" ∨ kind.name = "removed" ∨ kind.name = "context" := by
    cases kind <;> simp [ChangeKind.name]
  refine accepts_obj (by simp) ?_ ?_
  · simp only [List.forall_mem_append, Json.forall_mem_optional]
    simp
  · cases lineNumber with
    | none => simpa using hkind
    | some n => simpa [-accepts_integer_nat, accepts_lineNumber n] using hkind

@[simp] theorem read_toJson (change : Change) : read change.toJson = .ok change := by
  obtain ⟨kind, content, _ | n⟩ := change <;>
    simp [read, toJson, readObject, required, withDefault, FieldName.find?, FieldName.plain,
      lineNumberField, readMember]

end Change

namespace FileChange

theorem accepts_toJson (file : FileChange) : Contract.fileChange.accepts file.toJson := by
  obtain ⟨filename, oldFilename, status, language, binary, changes⟩ := file
  refine accepts_obj (by simp) ?_ ?_
  · simp only [List.forall_mem_append, Json.forall_mem_optional]
    simp
  · cases status <;> simp [accepts_array_map Change.accepts_toJson, FileStatus.name]

@[simp] theorem read_toJson (file : FileChange) : read file.toJson = .ok file := by
  obtain ⟨filename, _ | oldFilename, status, language, binary, changes⟩ := file <;>
    simp [read, toJson, readObject, required, withDefault, FieldName.find?, FieldName.plain,
      readMember, readList, readItems_map]

end FileChange

theorem Summary.accepts_toJson (summary : Summary) : Contract.summary.accepts summary.toJson :=
  accepts_obj (by simp) (by simp) (by simp)

namespace ParsedDiff

theorem accepts_toJson (diff : ParsedDiff) : Contract.parsedDiff.accepts diff.toJson :=
  accepts_obj (by simp) (by simp)
    (by simp [accepts_array_map FileChange.accepts_toJson, Summary.accepts_toJson])

@[simp] theorem read_toJson (diff : ParsedDiff) : read diff.toJson = .ok diff := by
  simp [read, toJson, readObject, withDefault, FieldName.find?, FieldName.plain, readList,
    readItems_map]

end ParsedDiff

namespace Finding

theorem accepts_toJson (finding : Finding) : Contract.finding.accepts finding.toJson := by
  obtain ⟨filename, lineNumber, severity, message, type⟩ := finding
  have hseverity : severity.name = "info" ∨ severity.name = "warning" ∨
      severity.name = "error" := by
    cases severity <;> simp [Severity.name]
  have htype : type.name = "debug-code" ∨ type.name = "security" ∨ type.name = "code-quality" ∨
      type.name = "error-handling" ∨ type.name = "code-review-practice" := by
    cases type <;> simp [IssueType.name]
  refine accepts_obj (by simp) ?_ ?_
  · simp only [List.forall_mem_append, Json.forall_mem_optional]
    simp
  · cases lineNumber with
    | none => simpa using ⟨hseverity, htype⟩
    | some n => simpa [-accepts_integer_nat, accepts_lineNumber n] using ⟨hseverity, htype⟩

@[simp] theorem read_toJson (finding : Finding) : read finding.toJson = .ok finding := by
  obtain ⟨filename, _ | n, severity, message, type⟩ := finding <;>
    simp [read, toJson, readObject, required, withDefault, FieldName.find?, FieldName.plain,
      lineNumberField, readMember]

end Finding

namespace Analysis

/-- Suggestions have to be distinct, and nothing else is asked of an analysis. -/
theorem accepts_toJson_iff {analysis : Analysis} :
    Contract.analysis.accepts analysis.toJson ↔ analysis.suggestions.Nodup := by
  have hissues := accepts_array_map Finding.accepts_toJson analysis.issues
  have hnodup : (analysis.suggestions.map Json.str).Nodup ↔ analysis.suggestions.Nodup :=
    List.nodup_map_iff fun _ _ h => Json.str.inj h
  rw [← hnodup]
  constructor
  · intro h
    obtain ⟨_, ⟨rfl⟩, hfits⟩ := accepts_object_iff.1 h
    obtain ⟨_, ⟨rfl⟩, -, hd⟩ :=
      accepts_array_iff.1 (hfits.forms ("suggestions", .array .string true) (by simp) _ rfl)
    exact hd rfl
  · intro hd
    have hsuggestions : accepts (.array .string true) (.arr (analysis.suggestions.map .str)) :=
      accepts_array_iff.2 ⟨_, rfl, by simp, fun _ => hd⟩
    exact accepts_obj (by simp) (by simp) (by simp [hissues, hsuggestions])

@[simp] theorem read_toJson (analysis : Analysis) : read analysis.toJson = .ok analysis := by
  have hs : readItems readString 0 (analysis.suggestions.map .str) = .ok analysis.suggestions :=
    readItems_map readString_str 0 _
  simp [read, toJson, readObject, withDefault, FieldName.find?, FieldName.plain, readList,
    readItems_map, hs]

end Analysis

namespace Review

theorem accepts_toJson {review : Review} (h : review.analysis.suggestions.Nodup) :
    Contract.review.accepts review.toJson :=
  accepts_obj (by simp) (by simp)
    (by simp [ParsedDiff.accepts_toJson, Analysis.accepts_toJson_iff.2 h])

@[simp] theorem read_toJson (review : Review) : read review.toJson = .ok review := by
  simp [read, toJson, readObject, required, FieldName.find?, FieldName.plain]

end Review
end DiffReview
