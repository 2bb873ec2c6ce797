import DiffReview.Diff.ParseError

/-!
# Parsing a diff

A diff is split into blocks first, and only then is each block read as one file change. The first
failure is the answer, so a fault found in scanning comes before any fault inside a block.
-/

namespace DiffReview

namespace Block

/-- The failure that a scan ends with at a line. -/
def failureAt (placed : List (Placement × Line)) : Stop ScanFault × Line → ParseFailure
  | (.fault fault, line) => .rejected ⟨.scan fault line, current placed ++ [line]⟩
  | (.numeral e, _) => .numeral e

/-- The blocks of a diff given by its lines. -/
def ofLines (lines : List Line) : Except ParseFailure (List Block) :=
  let scan := Scan.ofLines lines
  match scan.stop with
  | some stop => .error (failureAt scan.placed stop)
  | none => .ok (ofPlaced scan.placed)

/-- The blocks of a diff. -/
def split (text : String) : Except ParseFailure (List Block) :=
  ofLines (Text.lines text.toList)

/-- The failure that reading a block ends with. -/
def failureIn (block : Block) : Stop BlockFault → ParseFailure
  | .fault fault => .rejected ⟨.block fault, block⟩
  | .numeral e => .numeral e

/-- The file change that a block describes. A block describes exactly one file. -/
def fileChange (block : Block) : Except ParseFailure FileChange :=
  match Patch.ofBlock block with
  | .error stop => .error (failureIn block stop)
  | .ok [patch] =>
    match patch.fileChange? with
    | some file => .ok file
    | none => .error .lineNumberZero
  | .ok patches => .error (.rejected ⟨.fileCount patches.length, block⟩)

end Block

namespace ParsedDiff

/-- The diff that a text writes. -/
def parse (text : String) : Except ParseFailure ParsedDiff :=
  match Block.split text with
  | .error e => .error e
  | .ok blocks =>
    match blocks.mapM Block.fileChange with
    | .error e => .error e
    | .ok files => .ok ⟨files⟩

end ParsedDiff
end DiffReview
