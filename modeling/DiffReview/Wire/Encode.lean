import DiffReview.Json.Basic
import DiffReview.Review.Engine

/-!
# Writing values of the domain

Field names are in camel case, absent values are left out, and computed totals are written along.
-/

namespace DiffReview

namespace Change

def toJson (change : Change) : Json :=
  .obj ([("kind", .str change.kind.name), ("content", .str change.content)] ++
    Json.optional "lineNumber" (change.lineNumber.map fun n => .nat n.val))

end Change

namespace FileChange

def toJson (file : FileChange) : Json :=
  .obj ([("filename", .str file.filename)] ++
    Json.optional "oldFilename" (file.oldFilename.map .str) ++
    [("status", .str file.status.name),
     ("language", .str file.language),
     ("binary", .bool file.binary),
     ("changes", .arr (file.changes.map Change.toJson)),
     ("additions", .nat file.additions),
     ("deletions", .nat file.deletions)])

end FileChange

namespace Summary

def toJson (summary : Summary) : Json :=
  .obj [("totalFiles", .nat summary.totalFiles),
    ("totalAdditions", .nat summary.totalAdditions),
    ("totalDeletions", .nat summary.totalDeletions)]

end Summary

namespace ParsedDiff

def toJson (diff : ParsedDiff) : Json :=
  .obj [("files", .arr (diff.files.map FileChange.toJson)), ("summary", diff.summary.toJson)]

end ParsedDiff

namespace Finding

def toJson (finding : Finding) : Json :=
  .obj ([("filename", .str finding.filename)] ++
    Json.optional "lineNumber" (finding.lineNumber.map fun n => .nat n.val) ++
    [("severity", .str finding.severity.name),
     ("message", .str finding.message),
     ("type", .str finding.type.name)])

end Finding

namespace Analysis

def toJson (analysis : Analysis) : Json :=
  .obj [("issues", .arr (analysis.issues.map Finding.toJson)),
    ("suggestions", .arr (analysis.suggestions.map .str))]

end Analysis

namespace Review

def toJson (review : Review) : Json :=
  .obj [("diff", review.diff.toJson), ("analysis", review.analysis.toJson)]

end Review
end DiffReview
