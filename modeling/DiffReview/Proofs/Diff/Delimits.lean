import DiffReview.Proofs.Diff.Tight
import DiffReview.Proofs.Scan.States
import DiffReview.Proofs.Text.Whole
import DiffReview.Proofs.Written.Heading

/-!
# Where a hunk ends

The scanner and the reader of a block measure the body of a hunk each with counters of its own. The
scanner's go below zero, the reader refuses a line for which a side has no room. In a text without
carriage returns the two agree on every hunk that has lines: if the scanner's counters come to zero
together, the reader takes the same lines and closes the hunk with the last of them; otherwise it
rejects the block, since the hunk is too long, ends early, or goes on with a line that is none of a
body. Only the starts, which the scanner does not convert, can keep the reader from the body.
-/
namespace DiffReview

namespace Line

/-- Without carriage returns the lines that can stand in a body are those that are read there. -/
theorem isSome_bodyLine {line : Line} (h : '\r' ∉ line) :
    (BodyLine.ofLine? line).isSome = line.isBody := by
  cases line with
  | nil => rfl
  | cons c text =>
    have hc : c ≠ '\r' := fun he => h (by simp [he])
    have hb : isBlank (c :: text) = false := by simp [isBlank, hc]
    simp only [BodyLine.ofLine?, isBody, hb, Bool.or_false]
    by_cases h₁ : c = '+'
    · simp [h₁]
    by_cases h₂ : c = '-'
    · simp [h₂]
    by_cases h₃ : c = ' '
    · simp [h₃]
    by_cases h₄ : c = '\\'
    · simp [h₄]
    simp [h₁, h₂, h₃, h₄, hc]

end Line

namespace OpenHunk

variable {hunk : OpenHunk} {s : ScanState} {line : Line} {bodyLine : BodyLine}

/-- A line that takes a counter of the scanner below zero is refused. -/
theorem Measures.take_eq_none (h : hunk.Measures s) (hl : BodyLine.ofLine? line = some bodyLine)
    (hneg : (s.consume line).oldLeft < 0 ∨ (s.consume line).newLeft < 0) :
    hunk.take bodyLine = none := by
  obtain ⟨ho, hn⟩ := h
  obtain ⟨hwo, hwn⟩ := Line.widths_of_bodyLine hl
  simp only [ScanState.consume] at hneg
  refine if_neg ?_
  rintro ⟨hlo, hln⟩
  omega

theorem Measures.nonneg (h : hunk.Measures s) : 0 ≤ s.oldLeft ∧ 0 ≤ s.newLeft := by
  obtain ⟨ho, hn⟩ := h
  omega

/-- Every other line is taken, and the hunk still lacks what the scanner says. -/
theorem Measures.take (h : hunk.Measures s) (hl : BodyLine.ofLine? line = some bodyLine)
    (hpos : 0 ≤ (s.consume line).oldLeft ∧ 0 ≤ (s.consume line).newLeft) :
    ∃ later, hunk.take bodyLine = some later ∧ later.Measures (s.consume line) := by
  obtain ⟨hwo, hwn⟩ := Line.widths_of_bodyLine hl
  have hroom : bodyLine.oldWidth ≤ hunk.oldLeft ∧ bodyLine.newWidth ≤ hunk.newLeft := by
    obtain ⟨ho, hn⟩ := h
    simp only [ScanState.consume] at hpos
    omega
  exact ⟨_, if_pos hroom, h.of_take hl (if_pos hroom)⟩

end OpenHunk

namespace PatchReader

/-- The open hunk takes these lines: it is open in front of each of them, and the last one closes
it. -/
structure Fills (r : PatchReader) (body : List Line) (q : PatchReader) : Prop where
  reads : r.Reads body q
  closed : q.hunk = none
  unfinished : ∀ first line later m, body = first ++ line :: later → r.Reads first m →
    m.hunk.isSome = true

theorem Fills.singleton {r q : PatchReader} {line : Line} (h : r.readLine line = .ok q)
    (hr : r.hunk.isSome = true) (hq : q.hunk = none) : r.Fills [line] q where
  reads := reads_singleton.2 h
  closed := hq
  unfinished := by
    intro first other later m hsplit hm
    cases first with
    | nil =>
      obtain rfl := reads_nil.1 hm
      exact hr
    | cons => simp at hsplit

theorem Fills.cons {r m q : PatchReader} {line : Line} {body : List Line} (h : m.Fills body q)
    (hm : r.readLine line = .ok m) (hr : r.hunk.isSome = true) : r.Fills (line :: body) q where
  reads := reads_cons.2 ⟨m, hm, h.reads⟩
  closed := h.closed
  unfinished := by
    intro first other later k hsplit hk
    cases first with
    | nil =>
      obtain rfl := reads_nil.1 hk
      exact hr
    | cons a first =>
      obtain ⟨rfl, hrest⟩ := List.cons.inj hsplit
      obtain ⟨m', hm', hk⟩ := reads_cons.1 hk
      obtain rfl : m = m' := Except.ok.inj (hm.symm.trans hm')
      exact h.unfinished first other later k hrest hk

variable {r q : PatchReader} {hunk later : OpenHunk} {line : Line} {bodyLine : BodyLine}

theorem readLine_of_take_eq_none (hr : r.hunk = some hunk)
    (hl : BodyLine.ofLine? line = some bodyLine) (hk : hunk.take bodyLine = none) :
    r.readLine line = .error (.fault .longHunk) := by
  simp [readLine, hr, readBody, hl, hk]

theorem readLine_of_not_bodyLine (hr : r.hunk = some hunk) (hl : BodyLine.ofLine? line = none) :
    r.readLine line = .error (.fault (.notBody line)) := by
  simp [readLine, hr, readBody, hl]

theorem foldlM_of_reads {first : List Line} (h : r.Reads first q) (rest : List Line) :
    (first ++ rest).foldlM readLine r = rest.foldlM readLine q := by
  rw [List.foldlM_append, show first.foldlM readLine r = .ok q from h]
  rfl

theorem foldlM_cons_of_ok (h : r.readLine line = .ok q) (rest : List Line) :
    (line :: rest).foldlM readLine r = rest.foldlM readLine q :=
  foldlM_of_reads (reads_singleton.2 h) rest

theorem foldlM_cons_of_error {stop : Stop BlockFault} (h : r.readLine line = .error stop)
    (rest : List Line) : (line :: rest).foldlM readLine r = .error stop := by
  rw [List.foldlM_cons, h]
  rfl

/-- What becomes of the open hunk over the lines that the scanner counts: it is complete with the
last of them, it has no room for one of them, or it still lacks lines behind the last. -/
inductive Counted (r : PatchReader) (hunk : OpenHunk) (body : List Line) (u : ScanState) : Prop
  | complete {q : PatchReader} {lines : List BodyLine} (hu : u.oldLeft = 0 ∧ u.newLeft = 0)
      (hf : r.Fills body q) (hb : body.mapM BodyLine.ofLine? = some lines)
      (hq : q.hunks = r.hunks ++ [⟨hunk.old, hunk.new, hunk.taken.reverse ++ lines⟩])
  | long (hu : u.oldLeft < 0 ∨ u.newLeft < 0)
      (he : ∀ rest, (body ++ rest).foldlM readLine r = .error (.fault .longHunk))
  | short {q : PatchReader} {later : OpenHunk} (hu : u.inBody = true) (hr : r.Reads body q)
      (hq : q.hunk = some later) (hm : later.Measures u)

namespace Counted

variable {body : List Line} {s u : ScanState}

theorem nil (hr : r.hunk = some hunk) (hm : hunk.Measures s) (hs : s.inBody = true) :
    r.Counted hunk [] s :=
  .short hs (reads_nil.2 rfl) hr hm

/-- The line with which the hunk is complete is the last one. -/
theorem last (hr : r.hunk = some hunk) (hcur : r.current.isSome = true)
    (hl : BodyLine.ofLine? line = some bodyLine) (hk : hunk.take bodyLine = some later)
    (hc : later.isComplete = true) (hu : u.oldLeft = 0 ∧ u.newLeft = 0) :
    r.Counted hunk [line] u := by
  obtain ⟨-, -, htaken, hold, hnew⟩ := OpenHunk.take_eq_some_iff.1 hk
  have hclosed : (r.resume later).hunk = none := by rw [resume_of_complete hc]
  have hopen : r.hunk.isSome = true := by rw [hr]; rfl
  have hb : [line].mapM BodyLine.ofLine? = some [bodyLine] := by simp [hl]
  refine .complete hu (.singleton (readLine_of_take hr hl hk) hopen hclosed) hb ?_
  rw [hunks_resume_of_complete hcur hc, OpenHunk.close, htaken, hold, hnew, List.reverse_cons]

/-- A line that leaves the hunk open is counted like those behind it. -/
theorem cons (h : Counted { r with hunk := some later } later body u) (hr : r.hunk = some hunk)
    (hl : BodyLine.ofLine? line = some bodyLine) (hk : hunk.take bodyLine = some later)
    (hc : later.isComplete = false) : r.Counted hunk (line :: body) u := by
  have hm : r.readLine line = .ok { r with hunk := some later } := by
    rw [readLine_of_take hr hl hk, resume_of_not_complete hc]
  cases h with
  | @complete q lines hu hf hb hq =>
    obtain ⟨-, -, htaken, hold, hnew⟩ := OpenHunk.take_eq_some_iff.1 hk
    have hopen : r.hunk.isSome = true := by rw [hr]; rfl
    have hb' : (line :: body).mapM BodyLine.ofLine? = some (bodyLine :: lines) := by simp [hl, hb]
    refine .complete hu (hf.cons hm hopen) hb' ?_
    rw [hq, htaken, hold, hnew, List.reverse_cons, List.append_assoc]
    rfl
  | long hu he => exact .long hu fun rest => (foldlM_cons_of_ok hm _).trans (he rest)
  | short hu hread hq hlater => exact .short hu (reads_cons.2 ⟨_, hm, hread⟩) hq hlater

end Counted
end PatchReader

namespace Scan

open ScanState

variable {s t u : ScanState} {body : List Line} {next : Option Line}

/-- No line of a body adds to what the scanner says is lacking. -/
theorem Run.left_le (h : Run s (body.map (Prod.mk .body)) next u) :
    u.oldLeft ≤ s.oldLeft ∧ u.newLeft ≤ s.newLeft := by
  induction body generalizing s with
  | nil =>
    cases h
    exact ⟨Int.le_refl _, Int.le_refl _⟩
  | cons line body ih =>
    cases h with
    | step hp hr =>
      obtain ⟨-, -, rfl⟩ := place_eq_body_iff.1 hp
      obtain ⟨ho, hn⟩ := ih hr
      simp only [consume] at ho hn
      omega

/-- Outside a body no line is placed in one. -/
theorem Run.eq_nil_of_not_inBody (h : Run s (body.map (Prod.mk .body)) next u)
    (hs : s.inBody = false) : body = [] ∧ u = s := by
  cases body with
  | nil =>
    cases h
    exact ⟨rfl, rfl⟩
  | cons line body =>
    cases h with
    | step hp => simp [(place_eq_body_iff.1 hp).1] at hs

/-- The reader and the scanner agree on the lines of a body, if the hunk lacks what the scanner says
in front of them. -/
theorem Run.counted {r : PatchReader} {hunk : OpenHunk}
    (h : Run s (body.map (Prod.mk .body)) next u) (hs : s.inBody = true)
    (hcr : ∀ line ∈ body, '\r' ∉ line) (hr : r.hunk = some hunk)
    (hcur : r.current.isSome = true) (hm : hunk.Measures s) : r.Counted hunk body u := by
  induction body generalizing s r hunk with
  | nil =>
    cases h
    exact .nil hr hm hs
  | cons line body ih =>
    obtain ⟨hline, hbody⟩ := List.forall_mem_cons.1 hcr
    cases h with
    | step hp hrest =>
      obtain ⟨-, hl, rfl⟩ := place_eq_body_iff.1 hp
      have hsome : (BodyLine.ofLine? line).isSome = true := by rw [Line.isSome_bodyLine hline, hl]
      obtain ⟨bodyLine, hl⟩ := Option.isSome_iff_exists.1 hsome
      by_cases hneg : (s.consume line).oldLeft < 0 ∨ (s.consume line).newLeft < 0
      · have hrefused := PatchReader.readLine_of_take_eq_none hr hl (hm.take_eq_none hl hneg)
        have hle := hrest.left_le
        exact .long (by omega) fun rest => PatchReader.foldlM_cons_of_error hrefused _
      obtain ⟨later, hk, hlater⟩ := hm.take hl (by omega)
      cases hc : later.isComplete with
      | true =>
        have hz := hlater.isComplete_iff.1 hc
        have hout : (s.consume line).inBody = false := not_inBody_of_exhausted ⟨by omega, by omega⟩
        obtain ⟨rfl, rfl⟩ := hrest.eq_nil_of_not_inBody hout
        exact .last hr hcur hl hk hc hz
      | false =>
        have hz : ¬ ((s.consume line).oldLeft = 0 ∧ (s.consume line).newLeft = 0) := by
          rw [← hlater.isComplete_iff, hc]
          exact Bool.false_ne_true
        have hin : (s.consume line).inBody = true :=
          inBody_iff.2 ⟨(inBody_iff.1 hs).1, by omega⟩
        exact .cons (ih (r := { r with hunk := some later }) hrest hin hbody rfl hcur hlater)
          hr hl hk hc

/-- A run that goes on from a body with another line leaves the open block, or goes on in it with a
line that is none of a body. -/
theorem Run.gather_of_inBody {later : List (Placement × Line)} (h : Run u later next t)
    (hu : u.inBody = true) (hl : ∀ p ∈ later.head?, p.1 ≠ .body) :
    (Block.gather later).1 = [] ∨
      ∃ line rest, (Block.gather later).1 = line :: rest ∧ Line.isBody line = false := by
  have hi : u.inside = true := (inBody_iff.1 hu).1
  cases h with
  | done => exact .inl rfl
  | @step _ v _ p line later _ hp hr =>
    have hne : p ≠ .body := hl (p, line) rfl
    rcases place_eq_ok_iff.1 hp with ⟨-, -, rfl, -⟩ | ⟨hb, ho⟩
    · exact absurd rfl hne
    have hline : Line.isBody line = false := by simpa [hu] using hb
    cases p with
    | opens => exact .inl rfl
    | body => exact absurd rfl hne
    | continues => exact .inr ⟨line, _, rfl, hline⟩
    | closes => exact .inl (hr.gather_fst_eq_nil ho.inside_of_closes)
    | skipped =>
      -- Only a blank line is skipped in an open block, and a blank line can stand in a body.
      cases ho with
      | otherSkipped _ hs =>
        have hblank : Line.isBlank line = true := by simpa [hi] using hs
        simp [Line.isBody_of_isBlank hblank] at hline
      | _ => simp_all

/-- A line that continues a block is placed behind the lines in front of it. -/
theorem Run.exists_split_of_continues {placed : List (Placement × Line)} (h : Run s placed next t)
    {first rest : List Line} {line : Line} (hb : (Block.gather placed).1 = first ++ line :: rest)
    (taken : List Line) : ∃ front p later, placed = front ++ (p, line) :: later ∧
      front.foldl Block.extend taken = first.reverse ++ taken ∧ (Block.gather later).1 = rest := by
  induction h generalizing first taken with
  | done => simp at hb
  | @step _ _ _ p other later _ hp hr ih =>
    have hkept (hg : other :: (Block.gather later).1 = first ++ line :: rest)
        (he : ∀ taken, Block.extend taken (p, other) = other :: taken) :
        ∃ front q after, (p, other) :: later = front ++ (q, line) :: after ∧
          front.foldl Block.extend taken = first.reverse ++ taken ∧
          (Block.gather after).1 = rest := by
      cases first with
      | nil =>
        obtain ⟨rfl, hrest⟩ := List.cons.inj hg
        exact ⟨[], p, later, rfl, rfl, hrest⟩
      | cons a first =>
        obtain ⟨rfl, hrest⟩ := List.cons.inj hg
        obtain ⟨front, q, after, rfl, hf, ha⟩ := ih hrest (other :: taken)
        exact ⟨(p, other) :: front, q, after, rfl, by simp [he, hf], ha⟩
    cases p with
    | opens => simp [Block.attach] at hb
    | closes =>
      have hnil : (Block.gather later).1 = [] := by
        rcases place_eq_ok_iff.1 hp with ⟨-, -, hbody, -⟩ | ⟨-, ho⟩
        · cases hbody
        · exact hr.gather_fst_eq_nil ho.inside_of_closes
      simp [Block.attach, hnil] at hb
    | continues => exact hkept hb fun _ => rfl
    | body => exact hkept hb fun _ => rfl
    | skipped =>
      obtain ⟨front, q, after, rfl, hf, ha⟩ := ih hb taken
      exact ⟨(.skipped, other) :: front, q, after, rfl, hf, ha⟩

/-- A line of a block that does not open it is placed behind the lines in front of it. -/
theorem Run.exists_split_of_mem {placed : List (Placement × Line)} (h : Run s placed next t)
    {block : Block} (hb : block ∈ Block.ofPlaced placed) {first rest : List Line} {line : Line}
    (hsplit : block = first ++ line :: rest) (hf : first ≠ []) (taken : List Line) :
    ∃ front p later, placed = front ++ (p, line) :: later ∧
      front.foldl Block.extend taken = first.reverse ∧ (Block.gather later).1 = rest := by
  induction h generalizing taken with
  | done => simp [Block.ofPlaced] at hb
  | @step _ _ _ p other later _ hp hr ih =>
    have hlater (hb : block ∈ Block.ofPlaced later) : ∃ front q after,
        (p, other) :: later = front ++ (q, line) :: after ∧
          front.foldl Block.extend taken = first.reverse ∧ (Block.gather after).1 = rest := by
      obtain ⟨front, q, after, rfl, hfront, ha⟩ := ih hb (Block.extend taken (p, other))
      exact ⟨(p, other) :: front, q, after, rfl, hfront, ha⟩
    cases p with
    | opens =>
      rw [Block.ofPlaced_opens, List.mem_cons] at hb
      rcases hb with rfl | hb
      · obtain ⟨a, first, rfl⟩ := List.exists_cons_of_ne_nil hf
        obtain ⟨rfl, hcut⟩ := List.cons.inj hsplit
        obtain ⟨front, q, after, rfl, hfront, ha⟩ := hr.exists_split_of_continues hcut [other]
        refine ⟨(.opens, other) :: front, q, after, rfl, ?_, ha⟩
        rw [List.foldl_cons, Block.extend, hfront, List.reverse_cons]
      · exact hlater hb
    | _ => exact hlater hb

end Scan

namespace Block

/-- The lines placed in a body go to the block in front of the lines that continue it later. -/
theorem gather_body_append (body : List Line) (later : List (Placement × Line)) :
    gather (body.map (Prod.mk .body) ++ later) =
      (body ++ (gather later).1, (gather later).2) := by
  induction body with
  | nil => rfl
  | cons line body ih =>
    rw [List.map_cons, List.cons_append, gather_cons, ih]
    rfl

end Block

namespace Scan

/-- In the scan of the lines, a header stands behind the first lines of the open block. The scanner
counts the body behind it, as far as it goes, and stops counting in a state; the block takes what is
after the body from the lines that are placed later. -/
def CountsBody (lines first : List Line) (header : Line) (body after : List Line)
    (u : ScanState) : Prop :=
  ∃ front later, (ofLines lines).placed =
      front ++ (.continues, header) :: (body.map (Prod.mk .body) ++ later) ∧
    Block.current front = first ∧ (Block.gather later).1 = after ∧
    (∀ p ∈ later.head?, p.1 ≠ .body) ∧
    Run {} (front ++ (.continues, header) :: body.map (Prod.mk .body)) (upcoming later none) u

/-- Placed lines begin with lines of a body, as many as there are. -/
theorem exists_body_append (placed : List (Placement × Line)) :
    ∃ (body : List Line) (later : List (Placement × Line)),
      placed = body.map (Prod.mk .body) ++ later ∧ ∀ p ∈ later.head?, p.1 ≠ .body := by
  induction placed with
  | nil => exact ⟨[], [], rfl, by simp⟩
  | cons p placed ih =>
    obtain ⟨q, line⟩ := p
    by_cases hq : q = .body
    · obtain ⟨body, later, rfl, hlater⟩ := ih
      exact ⟨line :: body, later, by rw [hq]; rfl, hlater⟩
    · exact ⟨[], (q, line) :: placed, rfl, by simpa using hq⟩

end Scan

namespace HunkHeader

variable {line : Line} {header : HunkHeader}

theorem mark_of_ofLine? (h : ofLine? line = some header) : Mark.ofLine line = .hunk := by
  by_contra hm
  simp [ofLine?_of_mark hm] at h

theorem not_isBody_of_ofLine? (h : ofLine? line = some header) : Line.isBody line = false := by
  obtain ⟨rest, rfl⟩ := Line.exists_of_startsWith (startsWith_of_ofLine? h)
  rfl

/-- If the lengths can be read, only a start that is too long keeps a hunk from being opened. -/
theorem overlong_of_ofHeader {e : NumeralTooLong} {old new : Nat}
    (h : OpenHunk.ofHeader header = .error e) (ho : header.old.lengthValue = .ok old)
    (hn : header.new.lengthValue = .ok new) :
    Text.maxDigits < header.old.start.length ∨ Text.maxDigits < header.new.start.length := by
  by_contra hs
  obtain ⟨hso, hsn⟩ := not_or.1 hs
  have hold : header.old.span = .ok ⟨Text.ofDigits header.old.start, old⟩ :=
    HunkSide.span_eq_ok_iff.2 ⟨Text.numeral_eq_ok_iff.2 ⟨Nat.not_lt.1 hso, rfl⟩, ho⟩
  have hnew : header.new.span = .ok ⟨Text.ofDigits header.new.start, new⟩ :=
    HunkSide.span_eq_ok_iff.2 ⟨Text.numeral_eq_ok_iff.2 ⟨Nat.not_lt.1 hsn, rfl⟩, hn⟩
  simp [OpenHunk.ofHeader, hold, hnew] at h

end HunkHeader

/-- A hunk header continues the open block, and the scanner begins to count at its lengths. -/
theorem ScanState.place_of_header {s t : ScanState} {line : Line} {next : Option Line}
    {p : Placement} {header : HunkHeader} (hl : HunkHeader.ofLine? line = some header)
    (h : s.place line next = .ok (p, t)) : p = .continues ∧ t.inside = true ∧
      ∃ old new, header.old.lengthValue = .ok old ∧ header.new.lengthValue = .ok new ∧
        t.oldLeft = old ∧ t.newLeft = new := by
  have hm := HunkHeader.mark_of_ofLine? hl
  rcases place_eq_ok_iff.1 h with ⟨-, hb, -⟩ | ⟨-, ho⟩
  · simp [HunkHeader.not_isBody_of_ofLine? hl] at hb
  · cases ho with
    | hunk _ hh hi ho hn =>
      obtain rfl := Option.some.inj (hl.symm.trans hh)
      exact ⟨rfl, hi, _, _, ho, hn, rfl, rfl⟩
    | _ => simp_all

namespace PatchReader

/-- The numerals of a header are read before its hunk is opened. -/
theorem readLine_of_ofHeader_error {r : PatchReader} {line : Line} {header : HunkHeader}
    {e : NumeralTooLong} (hl : HunkHeader.ofLine? line = some header) (hr : r.hunk = none)
    (hcur : r.current.isSome = true) (ho : OpenHunk.ofHeader header = .error e) :
    r.readLine line = .error (.numeral e) := by
  simp only [readLine, hr, readHeading, Heading.ofLine_eq_hunk_iff.2 hl, hcur, if_true, ho]

/-- How the reader of a block goes on at a hunk header, compared with the state `u` in which the
scanner stops counting the body: it takes the same lines and closes the hunk with the last of them,
or it rejects the block. -/
inductive Delimits (r : PatchReader) (line : Line) (header : HunkHeader) (body after : List Line)
    (u : ScanState) (answer : Except (Stop BlockFault) (List Patch)) : Prop
  | complete {m q : PatchReader} {hunk : Hunk} (hu : u.oldLeft = 0 ∧ u.newLeft = 0)
      (hm : r.readLine line = .ok m) (hf : m.Fills body q) (hq : q.hunks = r.hunks ++ [hunk])
      (hb : body.mapM BodyLine.ofLine? = some hunk.body)
  | long (hu : u.oldLeft < 0 ∨ u.newLeft < 0) (ha : answer = .error (.fault .longHunk))
  | short (hu : 0 ≤ u.oldLeft ∧ 0 ≤ u.newLeft) (hs : 0 < u.oldLeft ∨ 0 < u.newLeft)
      (he : after = []) (ha : answer = .error (.fault .shortHunk))
  | interrupted {other : Line} {rest : List Line} (hu : 0 ≤ u.oldLeft ∧ 0 ≤ u.newLeft)
      (hs : 0 < u.oldLeft ∨ 0 < u.newLeft) (he : after = other :: rest)
      (hl : Line.isBody other = false) (ha : answer = .error (.fault (.notBody other)))
  /-- The scanner does not look at the starts. -/
  | unread {e : NumeralTooLong} (hs : Text.maxDigits < header.old.start.length ∨
        Text.maxDigits < header.new.start.length) (ha : answer = .error (.numeral e))

end PatchReader

namespace Patch

theorem ofBlock_of_reads {q : PatchReader} {block : List Line}
    (h : ({} : PatchReader).Reads block q) : ofBlock block = q.finish := by
  rw [ofBlock, show block.foldlM PatchReader.readLine {} = .ok q from h]

/-- A block is rejected at the first line that is not taken. -/
theorem ofBlock_of_error {r : PatchReader} {first rest : List Line} {stop : Stop BlockFault}
    (h : ({} : PatchReader).Reads first r)
    (he : rest.foldlM PatchReader.readLine r = .error stop) :
    ofBlock (first ++ rest) = .error stop := by
  rw [ofBlock, PatchReader.foldlM_of_reads h, he]

end Patch

namespace Scan

open ScanState

/-- What the reader says of a block after a header that it can read. -/
theorem Run.delimits {s t u : ScanState} {r : PatchReader} {hunk : OpenHunk}
    {first body : List Line} {line : Line} {header : HunkHeader}
    {later : List (Placement × Line)} {next : Option Line}
    (h : Run s (body.map (Prod.mk .body)) (upcoming later next) u) (hs : s.inBody = true)
    (hlater : Run u later next t) (hstop : ∀ p ∈ later.head?, p.1 ≠ .body)
    (hcr : ∀ l ∈ body ++ (Block.gather later).1, '\r' ∉ l)
    (hread : ({} : PatchReader).Reads first r) (hcur : r.current.isSome = true)
    (hline : r.readLine line = .ok { r with inHeader := false, hunk := some hunk })
    (hm : hunk.Measures s) (hnew : hunk.taken = []) :
    r.Delimits line header body (Block.gather later).1 u
      (Patch.ofBlock (first ++ line :: (body ++ (Block.gather later).1))) := by
  obtain ⟨hbody, hafter⟩ := List.forall_mem_append.1 hcr
  have hcounted := h.counted (r := { r with inHeader := false, hunk := some hunk }) hs hbody rfl
    hcur hm
  cases hcounted with
  | complete hu hf hb hq =>
    rw [hnew, List.reverse_nil, List.nil_append] at hq
    exact .complete hu hline hf hq hb
  | long hu he =>
    exact .long hu (Patch.ofBlock_of_error hread
      ((PatchReader.foldlM_cons_of_ok hline _).trans (he _)))
  | @short q left hu hr hq hm =>
    have hread' : ({} : PatchReader).Reads (first ++ line :: body) q :=
      PatchReader.reads_append.2 ⟨r, hread, PatchReader.reads_cons.2 ⟨_, hline, hr⟩⟩
    have hlack := (inBody_iff.1 hu).2
    rcases hlater.gather_of_inBody hu hstop with hnil | ⟨other, rest, hcons, hother⟩
    · have hc := hm.not_isComplete hu
      refine .short hm.nonneg hlack hnil ?_
      rw [hnil, List.append_nil, Patch.ofBlock_of_reads hread']
      simp [PatchReader.finish, hq, hc]
    · have hnone : BodyLine.ofLine? other = none := by
        rw [← Option.isSome_eq_false_iff.trans Option.isNone_iff_eq_none,
          Line.isSome_bodyLine (hafter other (by simp [hcons])), hother]
      have hrefused := PatchReader.readLine_of_not_bodyLine hq hnone
      refine .interrupted hm.nonneg hlack hcons hother ?_
      rw [hcons, ← List.cons_append, ← List.append_assoc]
      exact Patch.ofBlock_of_error hread' (PatchReader.foldlM_cons_of_error hrefused _)

/-- The reader goes on at a header that the scanner has placed as far as the scanner counts, or it
rejects the block. -/
theorem Run.delimits_of_header {s t u : ScanState} {p : Placement} {line : Line}
    {first body : List Line} {later : List (Placement × Line)} {next : Option Line}
    {header : HunkHeader}
    (h : Run s ((p, line) :: body.map (Prod.mk .body)) (upcoming later next) u)
    (hlater : Run u later next t) (hstop : ∀ p ∈ later.head?, p.1 ≠ .body)
    (hcr : ∀ l ∈ body ++ (Block.gather later).1, '\r' ∉ l)
    (hl : HunkHeader.ofLine? line = some header)
    (hpos : 0 < header.old.declared ∨ 0 < header.new.declared) {r : PatchReader}
    (hread : ({} : PatchReader).Reads first r) (hr : r.hunk = none)
    (hcur : r.current.isSome = true) :
    r.Delimits line header body (Block.gather later).1 u
      (Patch.ofBlock (first ++ line :: (body ++ (Block.gather later).1))) := by
  cases h with
  | @step _ v _ _ _ _ _ hp hbody =>
    obtain ⟨-, hin, old, new, ho, hn, hlo, hln⟩ := place_of_header hl hp
    have hv : v.inBody = true := by
      simp only [HunkSide.declared, ho, hn] at hpos
      exact inBody_iff.2 ⟨hin, by omega⟩
    cases hopen : OpenHunk.ofHeader header with
    | error e =>
      have hline := PatchReader.readLine_of_ofHeader_error hl hr hcur hopen
      exact .unread (HunkHeader.overlong_of_ofHeader hopen ho hn)
        (Patch.ofBlock_of_error hread (PatchReader.foldlM_cons_of_error hline _))
    | ok hunk =>
      have hline := PatchReader.readLine_of_ofHeader hl hr hcur hopen
      have hm := OpenHunk.measures_of_ofHeader hopen ho hn hlo hln
      obtain ⟨-, -, -, -, htaken⟩ := OpenHunk.ofHeader_eq_ok_iff.1 hopen
      exact hbody.delimits hv hlater hstop hcr hread hcur hline hm htaken

/-- A hunk header of a block is placed behind the lines in front of it, and the scanner counts a
body behind it. -/
theorem Run.exists_countsBody {placed : List (Placement × Line)} {t : ScanState}
    (h : Run {} placed none t) {first rest : List Line} {line : Line}
    (hb : first ++ line :: rest ∈ Block.ofPlaced placed) {header : HunkHeader}
    (hl : HunkHeader.ofLine? line = some header) :
    ∃ front p body later u, placed = front ++ (p, line) :: (body.map (Prod.mk .body) ++ later) ∧
      Block.current front = first ∧ rest = body ++ (Block.gather later).1 ∧
      (∀ p ∈ later.head?, p.1 ≠ .body) ∧
      Run {} (front ++ (p, line) :: body.map (Prod.mk .body)) (upcoming later none) u ∧
      Run u later none t := by
  have hfirst : first ≠ [] := by
    rintro rfl
    have ho : line.Opens rest.head? := h.begins (by simp [Heralds]) _ hb
    simp [Line.opens_iff, HunkHeader.mark_of_ofLine? hl] at ho
  obtain ⟨front, p, behind, rfl, hfront, rfl⟩ := h.exists_split_of_mem hb rfl hfirst []
  obtain ⟨body, later, rfl, hlater⟩ := exists_body_append behind
  rw [show front ++ (p, line) :: (body.map (Prod.mk .body) ++ later) =
    (front ++ (p, line) :: body.map (Prod.mk .body)) ++ later by simp] at h
  obtain ⟨u, hu, hrest⟩ := h.of_append
  refine ⟨front, p, body, later, u, rfl, ?_, ?_, hlater, hu, hrest⟩
  · rw [Block.current, hfront, List.reverse_reverse]
  · rw [Block.gather_body_append]

end Scan

namespace Block

/-- In a text without carriage returns, the scanner and the reader of a block end every hunk that
has lines with the same line, or the reader rejects the block; but it does not read a header with a
start that is too long. In a block that is accepted every such hunk ends with the same line for
both. -/
theorem hunks_delimited {text : String} {blocks : List Block} (hcr : '\r' ∉ text.toList)
    (h : split text = .ok blocks) {first rest : List Line} {line : Line}
    (hb : first ++ line :: rest ∈ blocks) {header : HunkHeader}
    (hl : HunkHeader.ofLine? line = some header)
    (hpos : 0 < header.old.declared ∨ 0 < header.new.declared) :
    ∃ body after u, rest = body ++ after ∧
      Scan.CountsBody (Text.lines text.toList) first line body after u ∧
      (∀ r, ({} : PatchReader).Reads first r → r.hunk = none → r.current.isSome = true →
        r.Delimits line header body after u (Patch.ofBlock (first ++ line :: rest))) ∧
      ∀ patches, Patch.ofBlock (first ++ line :: rest) = .ok patches →
        u.oldLeft = 0 ∧ u.newLeft = 0 ∧ ∃ r m q, ({} : PatchReader).Reads first r ∧
          r.readLine line = .ok m ∧ m.Fills body q := by
  obtain ⟨placed, t, hrun, hlines, rfl⟩ := ofLines_eq_ok_iff.1 h
  have hreturn : ∀ l ∈ rest, '\r' ∉ l := by
    intro l hm hr
    have hmem : l ∈ placed.map Prod.snd := mem_of_mem_ofPlaced hb (by simp [hm])
    exact hcr (Text.mem_of_mem_lines (hlines ▸ hmem) hr)
  obtain ⟨front, p, body, later, u, hplaced, rfl, rfl, hlater, hu, hrest⟩ :=
    hrun.exists_countsBody hb hl
  obtain ⟨s, -, hheader⟩ := hu.of_append
  have hp : p = .continues := by
    cases hheader with
    | step hp => exact (ScanState.place_of_header hl hp).1
  subst hp
  have hdelimits : ∀ r, ({} : PatchReader).Reads (current front) r → r.hunk = none →
      r.current.isSome = true → r.Delimits line header body (gather later).1 u
        (Patch.ofBlock (current front ++ line :: (body ++ (gather later).1))) :=
    fun r => hheader.delimits_of_header hrest hlater hreturn hl hpos
  refine ⟨body, _, u, rfl, ⟨front, later, ?_, rfl, rfl, hlater, hu⟩, hdelimits, ?_⟩
  · rw [← hlines, Scan.ofLines, hrun.after_eq, hplaced]
  · intro patches hpatches
    obtain ⟨q, hq, -⟩ := Patch.ofBlock_eq_ok_iff.1 hpatches
    obtain ⟨r, hr, hbehind⟩ := PatchReader.reads_append.1 hq
    obtain ⟨m, hm, -⟩ := PatchReader.reads_cons.1 hbehind
    obtain ⟨hnone, hcur, -⟩ := PatchReader.readLine_of_header hl hm
    have hd := hdelimits r hr hnone hcur
    rw [hpatches] at hd
    cases hd with
    | complete hu hm hf => exact ⟨hu.1, hu.2, r, _, _, hr, hm, hf⟩
    | _ => contradiction

/-- A hunk with a note between its lines. -/
def noted : String :=
  "--- a/x\n+++ b/x\n@@ -1,2 +1,2 @@\n a\n-b\n\\ No newline at end of file\n+c\n"

/-- The lines behind the header of that hunk. -/
def notedBody : List Line :=
  [" a".toList, "-b".toList, "\\ No newline at end of file".toList, "+c".toList]

/-- The scanner counts the hunk to its end, past the note, and the reader closes it with the same
line. -/
theorem hunks_delimited_noted :
    '\r' ∉ noted.toList ∧
    split noted = .ok [["--- a/x".toList, "+++ b/x".toList] ++
      "@@ -1,2 +1,2 @@".toList :: notedBody] ∧
    ∃ body after u, notedBody = body ++ after ∧
      Scan.CountsBody (Text.lines noted.toList) ["--- a/x".toList, "+++ b/x".toList]
        "@@ -1,2 +1,2 @@".toList body after u ∧ u.oldLeft = 0 ∧ u.newLeft = 0 ∧
      ∃ r m q, ({} : PatchReader).Reads ["--- a/x".toList, "+++ b/x".toList] r ∧
        r.readLine "@@ -1,2 +1,2 @@".toList = .ok m ∧ m.Fills body q := by
  have hcr : '\r' ∉ noted.toList := by decide
  have hs : split noted = .ok [["--- a/x".toList, "+++ b/x".toList] ++
      "@@ -1,2 +1,2 @@".toList :: notedBody] := rfl
  have hl : HunkHeader.ofLine? "@@ -1,2 +1,2 @@".toList =
      some ⟨⟨['1'], some ['2']⟩, ⟨['1'], some ['2']⟩⟩ := rfl
  obtain ⟨body, after, u, hcut, hcounts, -, hok⟩ :=
    hunks_delimited hcr hs (List.mem_singleton_self _) hl (by decide)
  obtain ⟨ho, hn, hfills⟩ := hok _ rfl
  exact ⟨hcr, hs, body, after, u, hcut, hcounts, ho, hn, hfills⟩

/-- A header of which the old start is one, with zeros in front. -/
def paddedHeader (zeros : Nat) : HunkHeader :=
  ⟨⟨List.replicate zeros '0' ++ ['1'], none⟩, ⟨['1'], none⟩⟩

/-- The lines in front of the header. -/
def paddedFront : List Line := ["--- a/x".toList, "+++ b/x".toList]

/-- The lines behind the header. -/
def paddedBody : List Line := ["-a".toList, "+b".toList]

/-- A text of one hunk with that header. -/
def padded (zeros : Nat) : String :=
  String.ofList (Text.join (paddedFront ++ (paddedHeader zeros).write [] :: paddedBody))

theorem not_mem_write_paddedHeader {c : Char} (hc : c ∉ "@ -01+".toList) (zeros : Nat) :
    c ∉ (paddedHeader zeros).write [] := by
  have hc : c ≠ '@' ∧ c ≠ ' ' ∧ c ≠ '-' ∧ c ≠ '0' ∧ c ≠ '1' ∧ c ≠ '+' := by simpa using hc
  simp [HunkHeader.write, HunkSide.write, paddedHeader, List.mem_replicate, hc]

theorem ofLine?_paddedHeader (zeros : Nat) :
    HunkHeader.ofLine? ((paddedHeader zeros).write []) = some (paddedHeader zeros) := by
  have hz : Text.isDigit '0' = true := by decide
  have ho : Text.isDigit '1' = true := by decide
  refine HunkHeader.ofLine?_write ⟨?_, by simp [paddedHeader]⟩
    ⟨?_, by simp [paddedHeader]⟩ []
  · simp [paddedHeader, Heading.isMode, List.all_replicate, hz, ho]
  · simp [paddedHeader, Heading.isMode, ho]

/-- The lines of the text hold neither of the two line ends. -/
theorem not_mem_of_padded {c : Char} (hc : c = '\n' ∨ c = '\r') (zeros : Nat) :
    ∀ line ∈ paddedFront ++ (paddedHeader zeros).write [] :: paddedBody, c ∉ line := by
  have hheader : c ∉ (paddedHeader zeros).write [] :=
    not_mem_write_paddedHeader (by rcases hc with rfl | rfl <;> decide) zeros
  have hfront : ∀ line ∈ paddedFront, c ∉ line := by rcases hc with rfl | rfl <;> decide
  have hbody : ∀ line ∈ paddedBody, c ∉ line := by rcases hc with rfl | rfl <;> decide
  exact List.forall_mem_append.2 ⟨hfront, List.forall_mem_cons.2 ⟨hheader, hbody⟩⟩

theorem not_mem_padded (zeros : Nat) : '\r' ∉ (padded zeros).toList := by
  rw [padded, String.toList_ofList, Text.join, List.mem_flatMap]
  rintro ⟨line, hl, hc⟩
  rcases List.mem_append.1 hc with hc | hc
  · exact not_mem_of_padded (.inr rfl) zeros line hl hc
  · simp at hc

theorem lines_padded (zeros : Nat) : Text.lines (padded zeros).toList =
    paddedFront ++ (paddedHeader zeros).write [] :: paddedBody := by
  rw [padded, String.toList_ofList]
  exact Text.lines_join _ (not_mem_of_padded (.inl rfl) zeros)

/-- The text with its placements. -/
def paddedPlaced (zeros : Nat) : List (Placement × Line) :=
  [(.opens, "--- a/x".toList), (.continues, "+++ b/x".toList)] ++
    (.continues, (paddedHeader zeros).write []) :: paddedBody.map (Prod.mk .body)

/-- The scanner goes over the whole text, whatever the number of zeros. -/
theorem run_padded (zeros : Nat) :
    Scan.Run {} (paddedPlaced zeros) none { inside := true, hadHunk := true } := by
  have hl := ofLine?_paddedHeader zeros
  have hheader : ScanState.place { inside := true } ((paddedHeader zeros).write [])
      (some "-a".toList) =
      .ok (.continues, { inside := true, hadHunk := true, oldLeft := 1, newLeft := 1 }) :=
    ScanState.place_of_outside ⟨Int.le_refl _, Int.le_refl _⟩
      (.hunk (HunkHeader.mark_of_ofLine? hl) hl rfl rfl rfl)
  exact .step rfl (.step rfl (.step hheader (.step rfl (.step rfl (.done _ _)))))

theorem split_padded (zeros : Nat) : split (padded zeros) =
    .ok [paddedFront ++ (paddedHeader zeros).write [] :: paddedBody] :=
  ofLines_eq_ok_iff.2 ⟨_, _, run_padded zeros, (lines_padded zeros).symm, rfl⟩

theorem countsBody_padded (zeros : Nat) :
    Scan.CountsBody (Text.lines (padded zeros).toList) paddedFront
      ((paddedHeader zeros).write []) paddedBody [] { inside := true, hadHunk := true } := by
  refine ⟨_, [], ?_, rfl, rfl, by simp, run_padded zeros⟩
  rw [lines_padded zeros, Scan.ofLines, show paddedFront ++ (paddedHeader zeros).write [] ::
    paddedBody = (paddedPlaced zeros).map Prod.snd from rfl, (run_padded zeros).after_eq]
  rfl

/-- With as many zeros as digits are read, the start is too long. -/
theorem ofHeader_paddedHeader {zeros : Nat} (h : Text.maxDigits ≤ zeros) :
    OpenHunk.ofHeader (paddedHeader zeros) = .error ⟨zeros + 1⟩ := by
  have hstart : Text.numeral (paddedHeader zeros).old.start = .error ⟨zeros + 1⟩ := by
    refine Text.numeral_eq_error_iff.2 ?_
    simpa [paddedHeader] using Nat.lt_succ_of_le h
  rw [OpenHunk.ofHeader, HunkSide.span, hstart]

/-- The scanner counts the lines of a hunk whose start has too many zeros, and the reader, which
has a current file there, neither takes the lines nor finds fault with the hunk. -/
theorem hunk_unread_padded :
    '\r' ∉ (padded 4300).toList ∧
    split (padded 4300) = .ok [paddedFront ++ (paddedHeader 4300).write [] :: paddedBody] ∧
    HunkHeader.ofLine? ((paddedHeader 4300).write []) = some (paddedHeader 4300) ∧
    0 < (paddedHeader 4300).old.declared ∧
    (∃ u, Scan.CountsBody (Text.lines (padded 4300).toList) paddedFront
      ((paddedHeader 4300).write []) paddedBody [] u ∧ u.oldLeft = 0 ∧ u.newLeft = 0) ∧
    (∃ r, ({} : PatchReader).Reads paddedFront r ∧ r.hunk = none ∧ r.current.isSome = true ∧
      ¬ ∃ m q, r.readLine ((paddedHeader 4300).write []) = .ok m ∧ m.Fills paddedBody q) ∧
    Patch.ofBlock (paddedFront ++ (paddedHeader 4300).write [] :: paddedBody) =
      .error (.numeral ⟨4301⟩) := by
  have hl := ofLine?_paddedHeader 4300
  obtain ⟨r, hr, hnone, hcur⟩ : ∃ r, ({} : PatchReader).Reads paddedFront r ∧ r.hunk = none ∧
      r.current.isSome = true := ⟨_, rfl, rfl, rfl⟩
  have hline := PatchReader.readLine_of_ofHeader_error hl hnone hcur
    (ofHeader_paddedHeader (show Text.maxDigits ≤ 4300 from Nat.le_refl _))
  refine ⟨not_mem_padded 4300, split_padded 4300, hl, Nat.one_pos,
    ⟨_, countsBody_padded 4300, rfl, rfl⟩, ⟨r, hr, hnone, hcur, ?_⟩, ?_⟩
  · rintro ⟨m, q, hm, -⟩
    cases hline.symm.trans hm
  · exact Patch.ofBlock_of_error hr (PatchReader.foldlM_cons_of_error hline _)

end Block
end DiffReview
