import DiffReview.Diff.Block
import DiffReview.Diff.Patch
import DiffReview.Text.Classes

/-!
# Diffs that are not recognised

A parse error is a fault together with the block in which it was found. Besides, reading can fail
on a numeral that is too long and on a line that would get the number zero; these name no block.
-/

namespace DiffReview

namespace ScanFault

/-- What is wrong with a line that fits nowhere. -/
def reason : ScanFault → String
  | .malformedHunkHeader => "Malformed hunk header"
  | .hunkOutsideFile => "Hunk found before any file header"
  | .sourceWithoutTarget => "Source file header without target file header"
  | .targetWithoutSource => "Target file header without source file header"
  | .longHunk => "Hunk is longer than declared"

end ScanFault

namespace BlockFault

/-- What is wrong with a block. Lines are shown with their newline. -/
def reason : BlockFault → String
  | .newFile line => "Unexpected new file found: " ++ Line.completed line
  | .deletedFile line => "Unexpected deleted file found: " ++ Line.completed line
  | .target line => "Target without source: " ++ Line.completed line
  | .hunk line => "Unexpected hunk found: " ++ Line.completed line
  | .note line => "Unexpected marker: " ++ Line.completed line
  | .noteBeforeHunk => "Unexpected marker: No newline at end of file"
  | .binaryPatch line => "Unexpected binary patch marker: " ++ Line.completed line
  | .notBody line => "Hunk diff line expected: " ++ Line.completed line
  | .longHunk => "Hunk is longer than expected"
  | .shortHunk => "Hunk is shorter than expected"

end BlockFault

/-- Why a diff is not recognised. -/
inductive ParseFault
  | scan (fault : ScanFault) (line : Line)
  | block (fault : BlockFault)
  | fileCount (n : Nat)
deriving DecidableEq

/-- A fault together with the block in which it was found. -/
structure ParseError where
  fault : ParseFault
  /-- The lines of the block, up to the offending line if the fault was found in scanning. -/
  block : Block
deriving DecidableEq

namespace ParseError

/-- The text that reports an error. A line that is part of it is shown without the blanks at its
end. -/
def message (e : ParseError) : String :=
  match e.fault with
  | .scan fault line =>
    fault.reason ++ ": " ++ String.ofList (Text.trimEnd Text.isBlank line)
  | .block fault => "Unable to parse file block: " ++ fault.reason
  | .fileCount n => "Expected exactly one file in block, got " ++ toString n

/-- The raw text of the block. -/
def blockText (e : ParseError) : String := Block.text e.block

end ParseError

/-- How reading a diff can fail. -/
inductive ParseFailure
  | rejected (e : ParseError)
  | numeral (e : NumeralTooLong)
  | lineNumberZero
deriving DecidableEq

end DiffReview
