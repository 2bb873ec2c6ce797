import DiffReview.Diff.Heading
import DiffReview.Diff.Hunk
import DiffReview.Diff.Scan
import DiffReview.Diff.FileChange

/-!
# Patches

A patch is what a block says about one file before it is interpreted: the two paths as written, a
mark for binary files, and the hunks. The reader takes the lines of a block one by one. It holds
at most one patch open; a heading that leads away from it makes the patch finished.
-/

namespace DiffReview

/-- What a block says about one file. -/
structure Patch where
  /-- The path in the old revision, as written. -/
  source : List Char
  /-- The path in the new revision, as written. -/
  target : List Char
  binary : Bool := false
  hunks : List Hunk := []
deriving DecidableEq

/-- The path that stands for a missing file. -/
def Patch.noFile : List Char := "/dev/null".toList

/-- A line that has no place in a block, or a hunk of the wrong length. -/
inductive BlockFault
  | newFile (line : Line)
  | deletedFile (line : Line)
  | target (line : Line)
  | hunk (line : Line)
  | note (line : Line)
  | noteBeforeHunk
  | binaryPatch (line : Line)
  | notBody (line : Line)
  | longHunk
  | shortHunk
deriving DecidableEq

/-- The reader of a block between two lines. -/
structure PatchReader where
  /-- Patches that no later line belongs to. -/
  finished : List Patch := []
  /-- The patch that the next heading belongs to. -/
  current : Option Patch := none
  /-- A heading of the current patch has been read and none of its paths or hunks. -/
  inHeader : Bool := false
  /-- The path of the last source line that no target line has followed. -/
  source : Option (List Char) := none
  /-- The hunk whose body is being read. -/
  hunk : Option OpenHunk := none
deriving DecidableEq

namespace PatchReader

/-- Every patch read so far. -/
def patches (r : PatchReader) : List Patch := r.finished ++ r.current.toList

/-- Finishes the current patch. -/
def leave (r : PatchReader) : PatchReader :=
  { r with finished := r.patches, current := none }

/-- Finishes the current patch and begins another. -/
def begin (r : PatchReader) (patch : Patch) : PatchReader :=
  { r with finished := r.patches, current := some patch }

/-- Replaces the current patch. -/
def update (r : PatchReader) (f : Patch → Patch) : PatchReader :=
  { r with current := r.current.map f }

/-- Reads a heading that tells nothing by itself. Without a header before it the current patch is
finished. -/
def readOther (r : PatchReader) : PatchReader :=
  if r.inHeader then r else { r.leave with inHeader := true }

/-- Reads a target line. It names the new path of the current patch, or begins a patch. -/
def readTarget (r : PatchReader) (line : Line) (path : List Char) :
    Except (Stop BlockFault) PatchReader :=
  match r.current, r.source with
  | some patch, _ => if patch.target = path then .ok r else .error (.fault (.target line))
  | none, none => .error (.fault (.target line))
  | none, some source =>
    .ok { r.begin ⟨source, path, false, []⟩ with inHeader := false, source := none }

/-- Marks the current patch as binary, or begins a binary one, and finishes it. -/
def readBinary (r : PatchReader) (source : List Char) (target : Option (List Char)) :
    PatchReader :=
  let r := match r.current with
    | some _ => r.update fun patch => { patch with binary := true }
    | none => r.begin ⟨source, target.getD source, true, []⟩
  { r.leave with inHeader := false }

/-- Reads a line outside hunk bodies. -/
def readHeading (r : PatchReader) (line : Line) : Except (Stop BlockFault) PatchReader :=
  match Heading.ofLine line with
  | .command source target =>
    .ok { r.begin ⟨source, target, false, []⟩ with inHeader := true }
  | .newFile =>
    if r.current.isSome && r.inHeader then
      .ok (r.update fun patch => { patch with source := Patch.noFile })
    else .error (.fault (.newFile line))
  | .deletedFile =>
    if r.current.isSome && r.inHeader then
      .ok (r.update fun patch => { patch with target := Patch.noFile })
    else .error (.fault (.deletedFile line))
  | .source path =>
    .ok (if r.inHeader then { r with source := some path }
      else { r.leave with source := some path })
  | .target path => r.readTarget line path
  | .hunk header =>
    if r.current.isSome then
      match OpenHunk.ofHeader header with
      | .error e => .error (.numeral e)
      | .ok hunk => .ok { r with inHeader := false, hunk := some hunk }
    else .error (.fault (.hunk line))
  | .note =>
    match r.current with
    | none => .error (.fault (.note line))
    | some patch => if patch.hunks = [] then .error (.fault .noteBeforeHunk) else .ok r
  | .empty => .ok (if r.current.any (·.hunks ≠ []) then r else r.readOther)
  | .binary source target => .ok (r.readOther.readBinary source target)
  | .binaryPatch =>
    let r := r.readOther
    if r.current.isSome then .ok (r.readBinary [] none) else .error (.fault (.binaryPatch line))
  | .other => .ok r.readOther

/-- Reads a line of the body of a hunk. -/
def readBody (r : PatchReader) (hunk : OpenHunk) (line : Line) :
    Except (Stop BlockFault) PatchReader :=
  match BodyLine.ofLine? line with
  | none => .error (.fault (.notBody line))
  | some bodyLine =>
    match hunk.take bodyLine with
    | none => .error (.fault .longHunk)
    | some hunk =>
      if hunk.isComplete then
        .ok { r.update fun patch => { patch with hunks := patch.hunks ++ [hunk.close] } with
          hunk := none }
      else .ok { r with hunk := some hunk }

/-- Reads a line. -/
def readLine (r : PatchReader) (line : Line) : Except (Stop BlockFault) PatchReader :=
  match r.hunk with
  | some hunk => r.readBody hunk line
  | none => r.readHeading line

/-- The patches at the end of a block, unless a hunk still lacks lines. -/
def finish (r : PatchReader) : Except (Stop BlockFault) (List Patch) :=
  match r.hunk with
  | none => .ok r.patches
  | some hunk =>
    if hunk.isComplete then
      .ok (r.update fun patch => { patch with hunks := patch.hunks ++ [hunk.close] }).patches
    else .error (.fault .shortHunk)

end PatchReader

namespace Patch

/-- The patches of a block. -/
def ofBlock (block : List Line) : Except (Stop BlockFault) (List Patch) :=
  match block.foldlM PatchReader.readLine {} with
  | .error e => .error e
  | .ok r => r.finish

/-- A path without the one-letter root that stands for a revision. -/
def stripRoot (root : Char) (path : List Char) : List Char :=
  ([root, '/'].isPrefixOf? path).getD path

/-- The status of a file, from its paths in the two revisions. -/
def status (old new : List Char) : FileStatus :=
  if old = noFile then .added
  else if new = noFile then .deleted
  else if old ≠ new then .renamed
  else .modified

/-- The changes of all hunks with their numbers, in order. -/
def numbered (patch : Patch) : List Numbered := patch.hunks.flatMap Hunk.numbered

/-- The file change that a patch describes; none if a line has the number zero. -/
def fileChange? (patch : Patch) : Option FileChange :=
  let old := stripRoot 'a' patch.source
  let new := stripRoot 'b' patch.target
  let status := status old new
  let filename := if status = .deleted then "" else String.ofList new
  (patch.numbered.mapM Numbered.change?).map fun changes => {
    filename
    oldFilename :=
      if status = .deleted ∨ status = .renamed then some (String.ofList old) else none
    status
    language := Language.ofPath filename
    binary := patch.binary
    changes }

end Patch
end DiffReview
