import DiffReview.Diff.Scan

/-!
# Blocks

A block is the lines of one file of a diff. The blocks of a scan are its opening lines, each with
the lines that continue it; skipped and closing lines belong to no block.
-/

namespace DiffReview

/-- The lines of one file of a diff. -/
abbrev Block := List Line

namespace Block

/-- The raw text of a block. -/
def text (block : Block) : String := String.ofList (Text.join block)

/-- Puts a placed line in front: the first part is the lines that continue an earlier block, the
second the blocks opened later. -/
def attach (p : Placement × Line) (later : List Line × List Block) : List Line × List Block :=
  match p.1 with
  | .opens => ([], (p.2 :: later.1) :: later.2)
  | .continues => (p.2 :: later.1, later.2)
  | .body => (p.2 :: later.1, later.2)
  | .skipped => later
  | .closes => later

/-- The lines that continue an earlier block, and the blocks that placed lines open. -/
def gather (placed : List (Placement × Line)) : List Line × List Block :=
  placed.foldr attach ([], [])

/-- The blocks of placed lines. -/
def ofPlaced (placed : List (Placement × Line)) : List Block := (gather placed).2

@[simp] theorem gather_nil : gather [] = ([], []) := rfl

@[simp] theorem gather_cons (p : Placement × Line) (placed : List (Placement × Line)) :
    gather (p :: placed) = attach p (gather placed) := rfl

/-- A placed line that stands in a block. -/
def isKept (p : Placement × Line) : Bool := p.1 ≠ .skipped && p.1 ≠ .closes

/-- Gathering keeps every line that stands in a block, in order, and no other. -/
theorem flatten_gather (placed : List (Placement × Line)) :
    (gather placed).1 ++ (gather placed).2.flatten = (placed.filter isKept).map Prod.snd := by
  induction placed with
  | nil => rfl
  | cons p placed ih =>
    obtain ⟨q, line⟩ := p
    cases q <;> simp [attach, isKept, ← ih]

/-- The lines of the last block, newest first, as long as it is open. -/
def extend (taken : List Line) (p : Placement × Line) : List Line :=
  match p.1 with
  | .opens => [p.2]
  | .continues => p.2 :: taken
  | .body => p.2 :: taken
  | .skipped => taken
  | .closes => []

/-- The lines of the block that is open after placed lines; none if no block is open. -/
def current (placed : List (Placement × Line)) : Block :=
  (placed.foldl extend []).reverse

end Block
end DiffReview
