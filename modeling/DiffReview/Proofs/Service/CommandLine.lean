import DiffReview.Proofs.Diff.Report
import DiffReview.Proofs.Json.RoundTrip
import DiffReview.Proofs.Service.Answer
import DiffReview.Proofs.Service.LineEnds
import DiffReview.Proofs.Written.RoundTrip
import DiffReview.Service.CommandLine

/-!
# The command line and the review endpoint

A run answers to a text as the review endpoint does, but for reviews that cannot be printed: the
endpoint gives them all the same, while a run is ended by the first integer that is too long. What a
run prints is read back as the endpoint's answer, and what it reports is the message and the block
of the endpoint's refusal. A message may end in a newline of its own, so in a report it is the empty
line behind one line that tells where the block begins.
-/
namespace DiffReview

namespace Endpoint

/-- The answer to a text that is no diff. -/
def unrecognised (message block : String) : Refusal :=
  ⟨422, .obj
    [("message", .str ("[endpoint_review] Could not parse diff: " ++ message)),
      ("block", .str block)]⟩

theorem unrecognised_inj {message block message' block' : String} :
    unrecognised message block = unrecognised message' block' ↔
      message = message' ∧ block = block' := by
  simp [unrecognised]

/-- An unexpected problem is not the client's fault. -/
theorem refusal_unexpected_ne (problem : Problem) (endpoint message block : String) :
    (Trouble.unexpected problem).refusal endpoint ≠ unrecognised message block := by
  simp [Trouble.refusal, unrecognised]

end Endpoint

namespace Outcome

/-- A message and a block that can be told apart when an empty line stands between them. -/
def Apart (message block : String) : Prop :=
  Text.OneLine message.toList ∧ block.toList.head? ≠ some '\n'

theorem report_inj {message block message' block' : String} (h : Apart message block)
    (h' : Apart message' block') (he : report message block = report message' block') :
    message = message' ∧ block = block' := by
  have hlist : message.toList ++ '\n' :: '\n' :: block.toList =
      message'.toList ++ '\n' :: '\n' :: block'.toList := by
    have hstderr := congrArg (fun outcome : Outcome => outcome.stderr.toList) he
    have hend : (message.toList ++ '\n' :: '\n' :: block.toList) ++ ['\n'] =
        (message'.toList ++ '\n' :: '\n' :: block'.toList) ++ ['\n'] := by
      simpa [report] using hstderr
    exact List.append_cancel_right hend
  obtain ⟨hm, hb⟩ := Text.eq_of_append_emptyLine h.1 h'.1 h.2 h'.2 hlist
  exact ⟨String.toList_inj.1 hm, String.toList_inj.1 hb⟩

/-- A problem is shown by its kind first, so it is not taken for a report. -/
theorem ofProblem_ne_report (problem : Problem) (message block : String) :
    ofProblem problem ≠ report message block := by
  intro h
  have hkind : problem.kind.toList ≠ [] ∧ problem.kind.toList.head? ≠ some 'C' := by
    cases problem <;> simp only [Problem.kind] <;> decide
  have hstderr := congrArg (fun outcome : Outcome => outcome.stderr.toList.head?) h
  cases hk : problem.kind.toList with
  | nil => exact hkind.1 hk
  | cons c rest =>
    simp [ofProblem, report, hk] at hstderr
    exact hkind.2 (by simp [hk, hstderr])

/-- The ways in which a run on a text ends, each with what the review endpoint answers. -/
inductive Ends (validator : Validator) (text : String) : Outcome → Prop
  | printed {review : Review} {printed : String}
      (ha : Endpoint.answerReview validator {} text = .ok review.toJson)
      (hp : review.toJson.toIndentedText = .ok printed) :
      Ends validator text ⟨0, printed ++ "\n", ""⟩
  | unprinted {review : Review} {e : NumberTooLong}
      (ha : Endpoint.answerReview validator {} text = .ok review.toJson)
      (hp : review.toJson.toIndentedText = .error e) :
      Ends validator text (ofProblem (.value e.message))
  | reported {message block : String}
      (ha : Endpoint.answerReview validator {} text =
        .error (Endpoint.unrecognised message block))
      (hapart : Apart message block) : Ends validator text (report message block)
  | failed {problem : Problem}
      (ha : Endpoint.answerReview validator {} text =
        .error ((Trouble.unexpected problem).refusal Endpoint.review.name)) :
      Ends validator text (ofProblem problem)

/-- Every run ends in one of these ways. -/
theorem ends_ofText (validator : Validator) (text : String) :
    Ends validator text (ofText text) := by
  cases hp : ParsedDiff.parse text with
  | ok diff =>
    obtain ⟨engine, hengine⟩ : ∃ engine, Config.engine {} {} = .ok engine :=
      Config.exists_engine (by decide)
    have ha : Endpoint.answerReview validator {} text = _ :=
      Endpoint.answerReview_of_ok hengine hp
    cases ht : (Review.toJson ⟨diff, engine.evaluate diff.files⟩).toIndentedText with
    | ok printed =>
      simp only [ofText, run, Review.runConfigured, hp, hengine, ht]
      exact .printed ha ht
    | error e =>
      simp only [ofText, run, Review.runConfigured, hp, hengine, ht]
      exact .unprinted ha ht
  | error e =>
    have ha : Endpoint.answerReview validator {} text = _ := Endpoint.answerReview_of_error hp
    simp only [ofText, run, Review.runConfigured, hp]
    cases e with
    | rejected e => exact .reported ha (ParsedDiff.report_of_parse hp)
    | numeral e => exact .failed ha
    | lineNumberZero => exact .failed ha

/-- What a run does is what the review endpoint answers to a text. -/
structure Agrees (validator : Validator) (outcome : Outcome) (text : String) : Prop where
  /-- The run succeeds exactly if the review does and can be printed. -/
  exits_iff : outcome.exitCode = 0 ↔
    ∃ r, Endpoint.answerReview validator {} text = .ok r ∧ r.Printable
  /-- Then the answer is what is printed. -/
  prints : ∀ r, Endpoint.answerReview validator {} text = .ok r → r.Printable →
    outcome.stderr = "" ∧ Json.ofText? outcome.stdout.toList = some r
  /-- A review that cannot be printed ends the run. -/
  loses : ∀ r, Endpoint.answerReview validator {} text = .ok r → ¬ r.Printable →
    ∃ e : NumberTooLong, e.number ∈ r.integers ∧ outcome = ofProblem (.value e.message)
  /-- A refused review is reported with its message and its block, and with no others that can be
  told apart in the report. -/
  reports_iff : ∀ message block,
    Endpoint.answerReview validator {} text = .error (Endpoint.unrecognised message block) ↔
      outcome = report message block ∧ Apart message block
  /-- Nothing else looks like a report. -/
  reports : ∀ message block, outcome = report message block →
    ∃ message' block', report message' block' = report message block ∧
      Endpoint.answerReview validator {} text =
        .error (Endpoint.unrecognised message' block')

namespace Ends

variable {validator : Validator} {text message block : String} {outcome : Outcome}

/-- What looks like a report was reported. -/
theorem exists_of_report (h : Ends validator text outcome) (ho : outcome = report message block) :
    ∃ message' block', report message' block' = report message block ∧
      Apart message' block' ∧ Endpoint.answerReview validator {} text =
        .error (Endpoint.unrecognised message' block') := by
  cases h with
  | printed => cases congrArg Outcome.exitCode ho
  | unprinted => exact absurd ho (ofProblem_ne_report _ _ _)
  | reported ha hapart => exact ⟨_, _, ho, hapart, ha⟩
  | failed => exact absurd ho (ofProblem_ne_report _ _ _)

/-- A refusal of the client is reported. -/
theorem eq_report (h : Ends validator text outcome)
    (ha : Endpoint.answerReview validator {} text =
      .error (Endpoint.unrecognised message block)) :
    outcome = report message block ∧ Apart message block := by
  cases h with
  | printed hr => cases hr.symm.trans ha
  | unprinted hr => cases hr.symm.trans ha
  | reported hr hapart =>
    obtain ⟨rfl, rfl⟩ := Endpoint.unrecognised_inj.1 (Except.error.inj (hr.symm.trans ha))
    exact ⟨rfl, hapart⟩
  | failed hr =>
    exact absurd (Except.error.inj (hr.symm.trans ha)) (Endpoint.refusal_unexpected_ne _ _ _ _)

/-- A review is printed, or it ends the run. -/
theorem printed_or_unprinted (h : Ends validator text outcome) {r : Json}
    (hr : Endpoint.answerReview validator {} text = .ok r) :
    (∃ printed, r.toIndentedText = .ok printed ∧ outcome = ⟨0, printed ++ "\n", ""⟩) ∨
      ∃ e : NumberTooLong, r.toIndentedText = .error e ∧
        outcome = ofProblem (.value e.message) := by
  cases h with
  | printed ha hp =>
    obtain rfl := Except.ok.inj (hr.symm.trans ha)
    exact .inl ⟨_, hp, rfl⟩
  | unprinted ha hp =>
    obtain rfl := Except.ok.inj (hr.symm.trans ha)
    exact .inr ⟨_, hp, rfl⟩
  | reported ha => cases hr.symm.trans ha
  | failed ha => cases hr.symm.trans ha

/-- A review that can be printed is printed. -/
theorem exists_printed (h : Ends validator text outcome) {r : Json}
    (hr : Endpoint.answerReview validator {} text = .ok r) (hprintable : r.Printable) :
    ∃ printed, r.toIndentedText = .ok printed ∧ outcome = ⟨0, printed ++ "\n", ""⟩ := by
  obtain hprinted | ⟨e, he, -⟩ := h.printed_or_unprinted hr
  · exact hprinted
  · obtain ⟨printed, hp⟩ := Json.exists_printed_iff.2 hprintable
    cases hp.symm.trans he

/-- A run succeeds only if it prints a review. -/
theorem exists_answer_of_exits (h : Ends validator text outcome) (he : outcome.exitCode = 0) :
    ∃ r, Endpoint.answerReview validator {} text = .ok r ∧ r.Printable := by
  cases h with
  | printed ha hp => exact ⟨_, ha, (Json.toIndentedText_eq_ok_iff.1 hp).1⟩
  | unprinted => cases he
  | reported => cases he
  | failed => cases he

/-- A run agrees with the endpoint, however it ends. -/
theorem agrees (h : Ends validator text outcome) : Agrees validator outcome text where
  exits_iff := by
    refine ⟨h.exists_answer_of_exits, fun ⟨r, hr, hprintable⟩ => ?_⟩
    obtain ⟨printed, -, rfl⟩ := h.exists_printed hr hprintable
    rfl
  prints := by
    intro r hr hprintable
    obtain ⟨printed, hp, rfl⟩ := h.exists_printed hr hprintable
    refine ⟨rfl, ?_⟩
    rw [String.toList_append]
    exact Json.ofText?_printed hp (List.forall_mem_singleton.2 rfl)
  loses := by
    intro r hr hn
    obtain ⟨printed, hp, -⟩ | ⟨e, he, ho⟩ := h.printed_or_unprinted hr
    · exact absurd (Json.toIndentedText_eq_ok_iff.1 hp).1 hn
    · exact ⟨e, (Json.toIndentedText_eq_error he).1, ho⟩
  reports_iff := by
    intro message block
    refine ⟨h.eq_report, fun ⟨ho, hapart⟩ => ?_⟩
    -- The report alone does not name the refusal, but only one message and block are apart in it.
    obtain ⟨message', block', hr, hapart', ha⟩ := h.exists_of_report ho
    obtain ⟨rfl, rfl⟩ := report_inj hapart' hapart hr
    exact ha
  reports := by
    intro message block ho
    obtain ⟨message', block', hr, -, ha⟩ := h.exists_of_report ho
    exact ⟨message', block', hr, ha⟩

end Ends

/-- The command line answers as the review endpoint does under the default configuration: for a
file, to the text with unified line ends, and for standard input to the text as it is. Exactly the
values without an integer of more than 4300 digits are printed, and what is printed is read back, so
different reviews are printed differently. In it only the quote, the backslash and the characters
below the space are escaped. -/
theorem agrees_with_endpoint (validator : Validator) (input : String) :
    Agrees validator (ofInput input) (String.ofList (Text.unifyNewlines input.toList)) ∧
    Agrees validator (ofText input) input ∧
    (∀ v : Json, (∃ printed, v.toIndentedText = .ok printed) ↔ v.Printable) ∧
    (∀ (v : Json) (printed : String), v.toIndentedText = .ok printed →
      Json.ofText? printed.toList = some v) ∧
    (∀ (review review' : Review) (printed : String), review.toJson.toIndentedText = .ok printed →
      review'.toJson.toIndentedText = .ok printed → review = review') ∧
    ∀ c : Char, Json.escaped c = [c] ↔ c ≠ '"' ∧ c ≠ '\\' ∧ 0x20 ≤ c.toNat := by
  refine ⟨(ends_ofText validator _).agrees, (ends_ofText validator input).agrees,
    fun _ => Json.exists_printed_iff, fun v printed h => ?_, fun review review' printed h h' => ?_,
    fun _ => Json.escaped_eq_iff⟩
  · simpa using Json.ofText?_printed h (List.forall_mem_nil _)
  · have hread := congrArg Review.read (Json.eq_of_printed h h')
    rw [Review.read_toJson, Review.read_toJson] at hread
    exact Checked.ok.inj hread

/-- A diff with carriage returns at the ends of its lines. -/
def returned : String := String.ofList (Text.crlf Endpoint.bare)

/-- The review of a diff by the default engine. -/
def reviewed (diff : ParsedDiff) : Json :=
  Review.toJson ⟨diff, (Engine.standard .en 300 50).evaluate diff.files⟩

/-- In a file the carriage returns belong to the line ends, and on standard input to the paths. The
reviews differ, and each run prints the one that the endpoint answers to the text that was read. -/
theorem agrees_with_endpoint_returned :
    (ofInput returned).exitCode = 0 ∧
    Json.ofText? (ofInput returned).stdout.toList = some (reviewed Endpoint.stampedDiff) ∧
    (ofText returned).exitCode = 0 ∧
    Json.ofText? (ofText returned).stdout.toList = some (reviewed Endpoint.bareReturned) ∧
    reviewed Endpoint.stampedDiff ≠ reviewed Endpoint.bareReturned := by
  have hengine : ({} : Config).engine {} = .ok (.standard .en 300 50) := rfl
  have hfile : Endpoint.answerReview (fun _ _ => "") {}
      (String.ofList (Text.unifyNewlines returned.toList)) =
        .ok (reviewed Endpoint.stampedDiff) := by
    rw [returned, String.toList_ofList, Text.unifyNewlines_crlf (by decide)]
    exact Endpoint.answerReview_of_ok hengine rfl
  have hinput : Endpoint.answerReview (fun _ _ => "") {} returned =
      .ok (reviewed Endpoint.bareReturned) := Endpoint.answerReview_of_ok hengine rfl
  have hprintable : ∀ diff ∈ [Endpoint.stampedDiff, Endpoint.bareReturned],
      (reviewed diff).Printable := by
    have hsmall : ∀ diff ∈ [Endpoint.stampedDiff, Endpoint.bareReturned],
        ∀ n ∈ (reviewed diff).integers, n.natAbs < 10 := by decide +kernel
    exact fun diff hd n hn => (hsmall diff hd n hn).trans_le (Nat.le_self_pow (by decide) 10)
  have hfirst := hprintable Endpoint.stampedDiff (by simp)
  have hsecond := hprintable Endpoint.bareReturned (by simp)
  obtain ⟨hin, hon, -⟩ := agrees_with_endpoint (fun _ _ => "") returned
  exact ⟨hin.exits_iff.2 ⟨_, hfile, hfirst⟩, (hin.prints _ hfile hfirst).2,
    hon.exits_iff.2 ⟨_, hinput, hsecond⟩, (hon.prints _ hinput hsecond).2, by decide +kernel⟩

/-- The line numbers of a diff are among the integers that are printed with its review. -/
theorem lineNumber_mem_integers {diff : ParsedDiff} {file : FileChange} {change : Change}
    {number : LineNumber} (hf : file ∈ diff.files) (hc : change ∈ file.changes)
    (hn : change.lineNumber = some number) (analysis : Analysis) :
    (number.val : Int) ∈ (Review.toJson ⟨diff, analysis⟩).integers := by
  have hchange : (number.val : Int) ∈ change.toJson.integers := by
    simp [Change.toJson, Json.optional, hn, Json.nat, Json.integers]
  have hfile : (number.val : Int) ∈ file.toJson.integers := by
    simp only [FileChange.toJson, Json.integers_obj, List.mem_flatMap]
    exact ⟨("changes", .arr (file.changes.map Change.toJson)), by simp,
      by simpa using ⟨change, hc, hchange⟩⟩
  simp only [Review.toJson, ParsedDiff.toJson, Json.integers_obj, List.flatMap_cons,
    Json.integers_arr, List.mem_append, List.mem_flatMap, List.mem_map]
  exact .inl (.inl ⟨_, ⟨file, hf, rfl⟩, hfile⟩)

/-- The greatest numeral that is read. -/
def nines : List Char := List.replicate Text.maxDigits '9'

theorem foldl_nines (count front : Nat) :
    (List.replicate count '9').foldl (fun n c => 10 * n + (Text.digit? c).getD 0) front + 1 =
      (front + 1) * 10 ^ count := by
  induction count generalizing front with
  | zero => simp
  | succ count ih =>
    have hnine : (Text.digit? '9').getD 0 = 9 := by decide
    have hfront : 10 * front + 9 + 1 = (front + 1) * 10 := by omega
    rw [List.replicate_succ, List.foldl_cons, ih, hnine, hfront, Nat.mul_assoc, Nat.pow_succ']

theorem ofDigits_nines : Text.ofDigits nines = 10 ^ Text.maxDigits - 1 := by
  have h := foldl_nines Text.maxDigits 0
  rw [Nat.zero_add, Nat.one_mul] at h
  exact Nat.eq_sub_of_add_eq h

/-- A hunk of two lines, of which the second has a number that is too long. -/
def lastLines : WrittenHunk where
  header := ⟨⟨nines, some ['2']⟩, ⟨['1'], some ['2']⟩⟩
  title := ⟨"".toList, by decide⟩
  hunk := ⟨⟨10 ^ Text.maxDigits - 1, 2⟩, ⟨1, 2⟩, [.context ['a'], .context ['b']]⟩
  oldWritten := by
    have hnine : Text.isDigit '9' = true := by decide
    have hlen : Text.maxDigits ≠ 0 := by decide
    refine ⟨?_, by decide⟩
    simp [Heading.isMode, nines, List.all_replicate, hnine, hlen]
  newWritten := ⟨by decide, by decide⟩
  oldSpan := by
    refine HunkSide.span_eq_ok_iff.2 ⟨Text.numeral_eq_ok_iff.2 ⟨?_, ofDigits_nines.symm⟩, rfl⟩
    simp [nines]
  newSpan := by decide
  oldLength := by decide
  newLength := by decide
  oldStart := fun _ =>
    Nat.le_sub_one_of_lt (Nat.one_lt_pow (by decide : Text.maxDigits ≠ 0) (by decide))
  newStart := by decide
  nonempty := ⟨_, List.mem_cons_self, rfl⟩
  noNewline := by decide
  notes := by simp

/-- The hunk as a change of a file. -/
def lastEntry : FileEntry := .plain (.modified ParsedDiff.pathF) [lastLines]

/-- The text of that change. -/
def overlong : String := String.ofList (Text.join ["--- a/f".toList, "+++ b/f".toList,
  "@@ -".toList ++ nines ++ ",2 +1,2 @@".toList, " a".toList, " b".toList])

theorem render_lastEntry : FileEntry.render [lastEntry] = overlong := by
  have hheader (start : List Char) :
      HunkHeader.write ⟨⟨start, some ['2']⟩, ⟨['1'], some ['2']⟩⟩ "".toList =
        "@@ -".toList ++ start ++ ",2 +1,2 @@".toList := by
    simp [HunkHeader.write, HunkSide.write]
  rw [FileEntry.render, List.flatMap_singleton]
  simp only [lastEntry, FileEntry.lines, FileEntry.pathLines, WrittenHunk.lines, lastLines, hheader,
    List.flatMap_cons, List.flatMap_nil]
  rfl

theorem parse_overlong : ParsedDiff.parse overlong = .ok ⟨[lastEntry.fileChange]⟩ := by
  have hsplit := FileEntry.split_render (List.isChain_singleton lastEntry)
  rw [render_lastEntry] at hsplit
  refine ParsedDiff.parse_eq_ok_iff.2 ⟨_, hsplit, ?_⟩
  exact .cons (FileEntry.fileChange_lines lastEntry) .nil

/-- The second of two lines has the number behind that of the first. -/
theorem mem_changes_twoLines {start : Nat} {last : LineNumber} (h : start + 1 = last.val) :
    ⟨.context, "b", some last⟩ ∈
      Hunk.changes ⟨⟨start, 2⟩, ⟨1, 2⟩, [.context ['a'], .context ['b']]⟩ := by
  obtain ⟨_, hpos⟩ := last
  subst h
  exact List.mem_filterMap.2 ⟨1, List.mem_range.2 Nat.one_lt_two, rfl⟩

/-- The least number that is too long. -/
def tooLong : LineNumber := ⟨10 ^ Text.maxDigits, Nat.pow_pos (by decide)⟩

/-- It is the number of the second line of that change. -/
theorem mem_changes_lastEntry :
    ⟨.context, "b", some tooLong⟩ ∈ lastEntry.fileChange.changes := by
  rw [FileEntry.fileChange]
  exact List.mem_flatMap.2 ⟨lastLines, List.mem_singleton_self _,
    mem_changes_twoLines (Nat.sub_add_cancel tooLong.2)⟩

theorem not_mem_overlong : '\r' ∉ overlong.toList := by
  rw [overlong, String.toList_ofList, Text.join, List.mem_flatMap]
  rintro ⟨line, hl, hc⟩
  generalize hn : nines = start at hl
  have hs : '\r' ∉ start := by
    rw [← hn, nines, List.mem_replicate]
    simp
  simp only [List.mem_cons, List.not_mem_nil, or_false] at hl
  rcases hl with rfl | rfl | rfl | rfl | rfl <;> simp [hs] at hc

/-- The endpoint gives the review of that change, and a run on it ends in a problem. -/
theorem not_printed_overlong :
    (∀ validator : Validator, ∃ r, Endpoint.answerReview validator {} overlong = .ok r) ∧
    ofInput overlong = ofProblem (.value
      ("Exceeds the limit (4300 digits) for integer string conversion; " ++
        "use sys.set_int_max_str_digits() to increase the limit")) ∧
    ¬ ∀ (validator : Validator) (content : String), (ofInput content).exitCode = 0 ↔
      ∃ r, Endpoint.answerReview validator {}
        (String.ofList (Text.unifyNewlines content.toList)) = .ok r := by
  have hengine : ({} : Config).engine {} = .ok (.standard .en 300 50) := rfl
  have hanswer (validator : Validator) : Endpoint.answerReview validator {} overlong =
      .ok (reviewed ⟨[lastEntry.fileChange]⟩) := Endpoint.answerReview_of_ok hengine parse_overlong
  have hnot : ¬ (reviewed ⟨[lastEntry.fileChange]⟩).Printable := fun hall => by
    have hlt := hall _ (lineNumber_mem_integers (List.mem_singleton_self _) mem_changes_lastEntry
      rfl _)
    rw [Int.natAbs_natCast] at hlt
    exact Nat.lt_irrefl tooLong.val hlt
  have hunified : String.ofList (Text.unifyNewlines overlong.toList) = overlong := by
    rw [Text.unifyNewlines_of_not_mem not_mem_overlong, String.ofList_toList]
  obtain ⟨e, -, hends⟩ := (ends_ofText (fun _ _ => "") overlong).agrees.loses _ (hanswer _) hnot
  have hrun : ofInput overlong = ofProblem (.value e.message) := by rw [ofInput, hunified, hends]
  refine ⟨fun validator => ⟨_, hanswer validator⟩, hrun, fun hall => ?_⟩
  have hexit := (hall (fun _ _ => "") overlong).2 (hunified.symm ▸ ⟨_, hanswer _⟩)
  rw [hrun] at hexit
  cases hexit

end Outcome
end DiffReview
