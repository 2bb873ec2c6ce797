import DiffReview.Diff.Mark
import DiffReview.Diff.HunkHeader

/-!
# Scanning a diff

The scanner places every line of a diff: a line opens a block, continues the block that is open as
a heading or in the body of a hunk, is skipped, or closes the block that is open. The body of a
hunk is measured by the lengths that its header declares, so its lines are never taken for headers.
The scan stops at the first line that fits nowhere.

The state holds no lines. What it keeps is whether a block is open and how far the open block has
come; the lines of the blocks are read off the placements.
-/

namespace DiffReview

/-- Why reading stopped. -/
inductive Stop (α : Type)
  | fault (f : α)
  | numeral (e : NumeralTooLong)
deriving DecidableEq

/-- A line that fits nowhere. -/
inductive ScanFault
  | malformedHunkHeader
  | hunkOutsideFile
  | sourceWithoutTarget
  | targetWithoutSource
  | longHunk
deriving DecidableEq

/-- The place of a line. -/
inductive Placement
  | opens
  | continues
  /-- In the body of a hunk of the open block. -/
  | body
  | skipped
  | closes
deriving DecidableEq

/-- The state between two lines. -/
structure ScanState where
  /-- A block is open. -/
  inside : Bool := false
  /-- The open block is still in the header that a command line began. -/
  gitHeader : Bool := false
  /-- The line before was a source line. -/
  expectTarget : Bool := false
  /-- The open block has had a hunk. -/
  hadHunk : Bool := false
  /-- Lines of the old revision that the hunk still lacks; negative when it had too many. -/
  oldLeft : Int := 0
  /-- Lines of the new revision that the hunk still lacks; negative when it had too many. -/
  newLeft : Int := 0
deriving DecidableEq

namespace ScanState

/-- The next line is looked for in the body of a hunk. -/
def inBody (s : ScanState) : Bool := s.inside && (0 < s.oldLeft || 0 < s.newLeft)

/-- Counts a body line. -/
def consume (s : ScanState) (line : Line) : ScanState :=
  { s with oldLeft := s.oldLeft - Line.oldWidth line, newLeft := s.newLeft - Line.newWidth line }

/-- Gives up a hunk whose body ended early. -/
def leaveBody (s : ScanState) : ScanState :=
  if s.inBody then { s with oldLeft := 0, newLeft := 0 } else s

/-- Places a hunk header. -/
def placeHunk (s : ScanState) (line : Line) :
    Except (Stop ScanFault) (Placement × ScanState) :=
  match HunkHeader.ofLine? line with
  | none => .error (.fault .malformedHunkHeader)
  | some header =>
    if s.inside then
      match header.old.lengthValue, header.new.lengthValue with
      | .error e, _ => .error (.numeral e)
      | _, .error e => .error (.numeral e)
      | .ok old, .ok new =>
        .ok (.continues,
          { s with gitHeader := false, hadHunk := true, oldLeft := old, newLeft := new })
    else .error (.fault .hunkOutsideFile)

/-- Places a source line. It opens a block unless it belongs to the header of the open one. -/
def placeSource (s : ScanState) (next : Option Line) :
    Except (Stop ScanFault) (Placement × ScanState) :=
  if next.any (Line.startsWith · Mark.targetMark) then
    if s.inside && s.gitHeader then
      .ok (.continues, { s with gitHeader := false, expectTarget := true })
    else
      .ok (.opens,
        { s with inside := true, gitHeader := false, expectTarget := true, hadHunk := false })
  else if s.inside then .error (.fault .sourceWithoutTarget)
  else .ok (.skipped, s)

/-- Places a target line. -/
def placeTarget (s : ScanState) : Except (Stop ScanFault) (Placement × ScanState) :=
  if s.expectTarget && s.inside then .ok (.continues, { s with expectTarget := false })
  else .error (.fault .targetWithoutSource)

/-- Places a line without a mark of its own. After a hunk, a signature closes the block and a line
that starts like a body line is one too many. -/
def placeOther (s : ScanState) (line : Line) :
    Except (Stop ScanFault) (Placement × ScanState) :=
  if !s.inside || Line.isBlank line then .ok (.skipped, s)
  else if s.hadHunk && Line.isSignature line then .ok (.closes, { s with inside := false })
  else if s.hadHunk && line.head?.any (fun c => c = ' ' || c = '+' || c = '-') then
    .error (.fault .longHunk)
  else .ok (.continues, s)

/-- Places a line that is not in the body of a hunk. -/
def placeOutside (s : ScanState) (line : Line) (next : Option Line) :
    Except (Stop ScanFault) (Placement × ScanState) :=
  match Mark.ofLine line with
  | .note => .ok (if s.inside then .continues else .skipped, s)
  | .hunk => s.placeHunk line
  | .command => .ok (.opens, { s with inside := true, gitHeader := true, hadHunk := false })
  | .source => s.placeSource next
  | .target => s.placeTarget
  | .binary =>
    if s.gitHeader then s.placeOther line
    else .ok (.opens, { s with inside := true, hadHunk := false })
  | .other => s.placeOther line

/-- Places a line; the line after it is known. -/
def place (s : ScanState) (line : Line) (next : Option Line) :
    Except (Stop ScanFault) (Placement × ScanState) :=
  if s.inBody && Line.isBody line then .ok (.body, s.consume line)
  else s.leaveBody.placeOutside line next

end ScanState

/-- The placements of the lines of a diff, and the line at which the scan stopped, if it did. -/
structure Scan where
  placed : List (Placement × Line)
  stop : Option (Stop ScanFault × Line)
deriving DecidableEq

namespace Scan

/-- The scan of the lines that come after a state. -/
def after (s : ScanState) : List Line → Scan
  | [] => ⟨[], none⟩
  | line :: rest =>
    match s.place line rest.head? with
    | .error stop => ⟨[], some (stop, line)⟩
    | .ok (p, s') =>
      let later := Scan.after s' rest
      ⟨(p, line) :: later.placed, later.stop⟩

@[simp] theorem after_nil (s : ScanState) : after s [] = ⟨[], none⟩ := rfl

theorem after_cons_of_error {s : ScanState} {line : Line} {rest : List Line}
    {stop : Stop ScanFault} (h : s.place line rest.head? = .error stop) :
    after s (line :: rest) = ⟨[], some (stop, line)⟩ := by
  simp [after, h]

theorem after_cons_of_ok {s s' : ScanState} {line : Line} {rest : List Line} {p : Placement}
    (h : s.place line rest.head? = .ok (p, s')) :
    after s (line :: rest) = ⟨(p, line) :: (after s' rest).placed, (after s' rest).stop⟩ := by
  simp [after, h]

/-- A scan that does not stop places every line. -/
theorem placed_lines_of_stop_eq_none {s : ScanState} {lines : List Line}
    (h : (after s lines).stop = none) : (after s lines).placed.map Prod.snd = lines := by
  induction lines generalizing s with
  | nil => simp
  | cons line rest ih =>
    cases hp : s.place line rest.head? with
    | error stop => simp [after_cons_of_error hp] at h
    | ok r =>
      rw [after_cons_of_ok hp] at h ⊢
      simp [ih h]

/-- The scan of a diff. -/
def ofLines (lines : List Line) : Scan := Scan.after {} lines

end Scan
end DiffReview
