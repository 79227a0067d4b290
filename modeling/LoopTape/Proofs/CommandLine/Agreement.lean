import LoopTape.Proofs.CommandLine.Rows
import LoopTape.Proofs.Machine.Stepping
import LoopTape.Proofs.Record.Files

namespace LoopTape
namespace CommandLine

open LoopTape.Record LoopTape.Report

/-!
# Runs, records and answers

A text is run by a machine, it is run and summed up in a record, and it is run for a
command line.  These are the same run.  A record is good exactly when the run came to the
end of its text, since no fault has an empty message, and the exit code of the answer says
the same as the record.  Both then show what the run has printed, where each byte is the
character with its number.

A run that fails keeps what it has printed in the state that it leaves.  Neither its record
nor its answer shows it.  The answer prints the report of the failure, which for a bracket
is more than the message that stands in the record.

Nothing is assumed about the text.  A run without a limit may never end, and then there is
no record and no answer either, however patient one is.
-/

/-! ## Messages are not empty -/

theorem unterminatedMessage_ne_nil : unterminatedMessage ≠ [] := by decide

theorem message_ofFault_ne_nil (source : List Char) (fault : Machine.Fault) :
    (Failure.ofFault source fault).message ≠ [] := by
  cases fault with
  | unmatched position => exact unterminatedMessage_ne_nil
  | overBudget steps limit =>
      apply List.append_ne_nil_of_left_ne_nil
      apply List.append_ne_nil_of_left_ne_nil
      decide

/-! ## Runs -/

/-- A record of a run holds what the run has left, if it came to the end of the text, and
otherwise nothing but the message of its fault. -/
structure SumsUp (source : List Char) (finish : Machine.Finish) (record : Evaluation) : Prop where
  ok : record.ok = true ↔ finish.fault = none
  result : finish.fault = none ->
    record.pointer = some finish.state.tape.pointer ∧
      record.memory = some finish.state.tape.cells ∧ record.output = finish.state.output ∧
      record.output = finish.state.printed.toList.map (fun byte => Char.ofNat byte.toNat)
  message : forall fault, finish.fault = some fault ->
    record.pointer = none ∧ record.memory = none ∧ record.output = [] ∧
      record.errorText = (Failure.ofFault source fault).message ∧ record.errorText ≠ []
  steps : record.steps = finish.state.steps

/-- An answer to a run shows what a good record holds as output, and otherwise the report of
the fault and no output. -/
structure AnswersRun (source : List Char) (finish : Machine.Finish) (record : Evaluation)
    (response : Response) : Prop where
  finished : record.ok = true -> response.exit = 0 ∧ response.stdout = record.output ∧
    response.stdout = finish.state.printed.toList.map (fun byte => Char.ofNat byte.toNat)
  failed : record.ok = false -> response.exit = 1 ∧ response.stdout = []
  unmatched : forall position, finish.fault = some (.unmatched position) ->
    response.stderr = "Error: ".toList ++ (UnterminatedLoop.at source position).report ++ ['\n']
  overBudget : forall steps limit, finish.fault = some (.overBudget steps limit) ->
    response.stderr = "Error: ".toList ++ (StepLimit.exceeded steps limit).message ++ ['\n']

theorem sumsUp_ofFinish (source : List Char) (finish : Machine.Finish) :
    SumsUp source finish (.ofFinish source finish) := by
  rcases finish with ⟨state, _ | fault⟩
  · refine ⟨iff_of_true rfl rfl, fun _ => ⟨rfl, rfl, rfl, rfl⟩, ?_, rfl⟩
    intro fault impossible
    cases impossible
  · have nonempty := message_ofFault_ne_nil source fault
    constructor
    · apply iff_of_false
      · intro good
        exact nonempty (List.isEmpty_iff.mp good)
      · intro impossible
        cases impossible
    · intro impossible
      cases impossible
    · intro other same
      cases same
      exact ⟨rfl, rfl, rfl, rfl, nonempty⟩
    · rfl

/-- What a record of a run that came to the end says leaves no part of it open. -/
theorem SumsUp.eq_of_finished {source : List Char} {finish : Machine.Finish}
    {record : Evaluation} (sums : SumsUp source finish record) (ended : finish.fault = none) :
    record =
      ⟨some finish.state.tape.pointer, some finish.state.tape.cells,
        finish.state.printed.toList.map (fun byte => Char.ofNat byte.toNat), [],
        finish.state.steps⟩ := by
  rcases sums.result ended with ⟨pointer, memory, _, output⟩
  have quiet : record.errorText = [] := List.isEmpty_iff.mp (sums.ok.mpr ended)
  have steps := sums.steps
  cases record
  simp only [Evaluation.mk.injEq]
  exact ⟨pointer, memory, output, quiet, steps⟩

theorem SumsUp.eq_of_failed {source : List Char} {finish : Machine.Finish}
    {record : Evaluation} (sums : SumsUp source finish record) {fault : Machine.Fault}
    (failed : finish.fault = some fault) :
    record =
      ⟨none, none, [], (Failure.ofFault source fault).message, finish.state.steps⟩ := by
  rcases sums.message fault failed with ⟨pointer, memory, output, message, _⟩
  have steps := sums.steps
  cases record
  simp only [Evaluation.mk.injEq]
  exact ⟨pointer, memory, output, message, steps⟩

/-- A run that came to the end of its text is answered, since no cell is too long to be
written in the dump. -/
theorem runEnding_finished (verbose stats : Bool) (count : Int) (machine : Machine)
    (elapsed : Nat) (state : Machine.State) :
    runEnding verbose stats (.number count) machine elapsed ⟨state, none⟩ =
      .answered (finishedResponse verbose stats
        (if 0 < count then plainDump (firstCells count state.tape) ++ ['\n'] else [])
        machine elapsed ⟨state, none⟩) := by
  simp only [runEnding, dumpLines_eq]

theorem answersRun_runEnding (stats : Bool) (count : Int) (machine : Machine) (elapsed : Nat)
    (finish : Machine.Finish) :
    Exists fun response =>
      runEnding false stats (.number count) machine elapsed finish = .answered response ∧
        AnswersRun machine.source finish (.ofFinish machine.source finish) response := by
  have sums := sumsUp_ofFinish machine.source finish
  rcases finish with ⟨state, _ | fault⟩
  · refine ⟨_, runEnding_finished false stats count machine elapsed state,
      fun _ => ⟨rfl, rfl, rfl⟩, ?_, ?_, ?_⟩
    · intro bad
      rw [sums.ok.mpr rfl] at bad
      cases bad
    · intro position impossible
      cases impossible
    · intro steps limit impossible
      cases impossible
  · refine ⟨_, rfl, ?_, fun _ => ⟨rfl, rfl⟩, ?_, ?_⟩
    · intro good
      cases sums.ok.mp good
    · intro position same
      cases same
      rfl
    · intro steps limit same
      cases same
      rfl

/-! ## Readings -/

/-- A record of a reading holds the tree, or nothing but the message. -/
structure SumsUpReading (source : List Char) (result : Except Bracket.Unmatched Tree)
    (record : Parsing) : Prop where
  ok : record.ok = true ↔ Exists fun tree => result = .ok tree
  tree : forall tree, result = .ok tree -> record.result = some tree
  message : forall bracket, result = .error bracket ->
    record.result = none ∧ record.errorText = (Failure.ofUnmatched source bracket).message ∧
      record.errorText ≠ []

/-- An answer to a reading has an error line exactly when the record is not good. -/
structure AnswersReading (source : List Char) (result : Except Bracket.Unmatched Tree)
    (record : Parsing) (response : Response) : Prop where
  finished : record.ok = true -> response.exit = 0 ∧ response.stderr = []
  failed : record.ok = false -> response.exit = 1 ∧ response.stdout = []
  unmatched : forall bracket, result = .error bracket ->
    response.stderr =
      "Error: ".toList ++ (UnterminatedLoop.at source bracket.position).report ++ ['\n']

theorem sumsUpReading_ofResult (source : List Char) (result : Except Bracket.Unmatched Tree) :
    SumsUpReading source result (.ofResult source result) := by
  cases result with
  | ok tree =>
      refine ⟨iff_of_true rfl ⟨tree, rfl⟩, ?_, ?_⟩
      · intro other same
        cases same
        rfl
      · intro bracket impossible
        cases impossible
  | error bracket =>
      refine ⟨iff_of_false ?_ ?_, ?_, ?_⟩
      · intro good
        exact unterminatedMessage_ne_nil (List.isEmpty_iff.mp good)
      · rintro ⟨tree, impossible⟩
        cases impossible
      · intro tree impossible
        cases impossible
      · intro other same
        cases same
        exact ⟨rfl, rfl, unterminatedMessage_ne_nil⟩

theorem answersReading_parseResponse (tree : Bool) (source : List Char) :
    AnswersReading source (Tree.read source) (parse source)
      (parseResponse false tree source) := by
  unfold parseResponse parse
  have sums := sumsUpReading_ofResult source (Tree.read source)
  cases reads : Tree.read source with
  | ok nodes =>
      rw [reads] at sums
      refine ⟨fun _ => ⟨rfl, rfl⟩, ?_, ?_⟩
      · intro bad
        rw [sums.ok.mpr ⟨nodes, rfl⟩] at bad
        cases bad
      · intro bracket impossible
        cases impossible
  | error bracket =>
      rw [reads] at sums
      refine ⟨?_, fun _ => ⟨rfl, rfl⟩, ?_⟩
      · intro good
        rcases sums.ok.mp good with ⟨nodes, impossible⟩
        cases impossible
      · intro other same
        cases same
        rfl

/-! ## Command lines -/

variable {arguments : List (List Char)} {environment : Option (List Char)}
  {directory : Files.Directory} {input : List UInt8} {file source : List Char}

/-- A command line with a plan is answered by the work of its job on the text. -/
theorem answer_of_plan {job : Job} (planned : plan arguments environment = .ok ⟨file, false, job⟩)
    (reads : sourceText file (lookUp directory input file) = .ok source)
    (patience elapsed : Nat) :
    answer arguments environment directory input patience elapsed =
      (job.ending false source patience).map (fun ending => ending elapsed) := by
  simp only [answer, planned, Plan.ending, reads]

/-- A text from a file or from the standard input is run in the same way by a machine, in a
record and for every command line that asks for a run and for no log.  Neither the cost of
the run nor any number of cells that it is asked for makes a difference.  Readings agree in
the same sense. -/
theorem runs_records_and_answers_agree
    (reads : sourceText file (lookUp directory input file) = .ok source) :
    (forall limit patience,
      evaluateWithin source (limit.map Int.ofNat) patience =
          .ok (evaluate ⟨source, limit⟩ patience) ∧
        (Machine.execute ⟨source, limit⟩ patience = none ->
          evaluate ⟨source, limit⟩ patience = none) ∧
        forall finish, Machine.execute ⟨source, limit⟩ patience = some finish ->
          Exists fun record => evaluate ⟨source, limit⟩ patience = some record ∧
            SumsUp source finish record) ∧
    (forall arguments environment limit count stats patience elapsed,
      plan arguments environment = .ok ⟨file, false, .run limit (.number count) stats⟩ ->
        (Machine.execute ⟨source, limit⟩ patience = none ->
          answer arguments environment directory input patience elapsed = none) ∧
        forall finish record, Machine.execute ⟨source, limit⟩ patience = some finish ->
          evaluate ⟨source, limit⟩ patience = some record ->
            Exists fun response =>
              answer arguments environment directory input patience elapsed =
                  some (.answered response) ∧
                AnswersRun source finish record response) ∧
    SumsUpReading source (Tree.read source) (parse source) ∧
    forall arguments environment tree patience elapsed,
      plan arguments environment = .ok ⟨file, false, .parse tree⟩ ->
        Exists fun response =>
          answer arguments environment directory input patience elapsed =
              some (.answered response) ∧
            AnswersReading source (Tree.read source) (parse source) response := by
  refine ⟨?_, ?_, sumsUpReading_ofResult source _, ?_⟩
  · intro limit patience
    refine ⟨evaluateWithin_of_limit source limit patience, ?_, ?_⟩
    · intro unending
      rw [evaluate, unending]
      rfl
    · intro finish finished
      refine ⟨_, ?_, sumsUp_ofFinish source finish⟩
      rw [evaluate, finished]
      rfl
  · intro arguments environment limit count stats patience elapsed planned
    rw [answer_of_plan planned reads]
    constructor
    · intro unending
      simp only [Job.ending, unending, Option.map_none]
    · intro finish record finished summed
      rcases answersRun_runEnding stats count ⟨source, limit⟩ elapsed finish with
        ⟨response, answered, answers⟩
      have same : Evaluation.ofFinish source finish = record := by
        rw [evaluate, finished] at summed
        exact Option.some.inj summed
      refine ⟨response, ?_, same ▸ answers⟩
      simp only [Job.ending, finished, Option.map_some, answered]
  · intro arguments environment tree patience elapsed planned
    rw [answer_of_plan planned reads]
    exact ⟨_, rfl, answersReading_parseResponse tree source⟩

/-- A directory with one file: an instruction, a print, a line end, and a closing bracket
that has to jump. -/
def strayDirectory : Files.Directory := [([['p']], .file [0x2b, 0x2e, 0x0d, 0x5d])]

theorem execute_print_and_stray :
    Machine.execute ⟨['+', '.', '\n', ']'], some 9⟩ 0 =
      some ⟨⟨Tape.blank.increment, 3, #[Tape.blank.increment.cell], 3⟩,
        some (.unmatched 3)⟩ := by
  have lost : Machine.landing ['+', '.', '\n', ']'] .loopStop Tape.blank.increment.cell 3 =
      .error (.unmatched 3) := by
    rw [Machine.blank_increment_cell]
    rfl
  have failed : Machine.step ⟨['+', '.', '\n', ']'], some 9⟩
      ⟨Tape.blank.increment, 3, #[Tape.blank.increment.cell], 2⟩ =
        ⟨⟨Tape.blank.increment, 3, #[Tape.blank.increment.cell], 3⟩, .error (.unmatched 3)⟩ :=
    @Machine.step_stranded ⟨_, some 9⟩ ⟨_, 3, _, _⟩ ']' .loopStop rfl rfl rfl _ lost
  have printed : Machine.execute ⟨['+', '.', '\n', ']'], some 9⟩ 0 =
      Machine.runFor ⟨['+', '.', '\n', ']'], some 9⟩ 17
        ⟨Tape.blank.increment, 3, #[Tape.blank.increment.cell], 2⟩ := rfl
  rw [printed]
  simp only [Machine.runFor, failed]

theorem execute_print :
    Machine.execute ⟨['+', '.'], none⟩ 2 =
      some ⟨⟨Tape.blank.increment, 2, #[1], 2⟩, none⟩ := by
  rw [← Machine.blank_increment_cell]
  rfl

/-- A run that has printed fails, and nothing of what it printed is shown.  Reading the same
text does not fail.  A text from the standard input that prints as much and then ends is
shown with its output. -/
theorem answers_with_and_without_stray_bracket :
    (sourceText ['p'] (lookUp strayDirectory [] ['p']) = .ok ['+', '.', '\n', ']'] ∧
      evaluateWithin ['+', '.', '\n', ']'] (some 9) 0 =
        .ok (some ⟨none, none, [], unterminatedMessage, 3⟩) ∧
      (Exists fun response =>
        answer ["run".toList, "--dump".toList, "1".toList, "--stats".toList, "p".toList]
            (some "9".toList) strayDirectory [] 0 0 = some (.answered response) ∧
          response.exit = 1 ∧ response.stdout = [] ∧
          response.stderr = "Error: ".toList ++
            (UnterminatedLoop.at ['+', '.', '\n', ']'] 3).report ++ ['\n']) ∧
      Exists fun response =>
        answer ["parse".toList, "p".toList] none strayDirectory [] 0 0 =
            some (.answered response) ∧
          response.exit = 0 ∧ response.stderr = []) ∧
    sourceText ['-'] (lookUp strayDirectory [0x2b, 0x2e] ['-']) = .ok ['+', '.'] ∧
      evaluateWithin ['+', '.'] none 2 =
        .ok (some ⟨some 0, some Tape.blank.increment.cells, ['\x01'], [], 2⟩) ∧
      Exists fun response =>
        answer ["run".toList, "--dump".toList, "1".toList, "-".toList] none strayDirectory
            [0x2b, 0x2e] 2 0 = some (.answered response) ∧
          response.exit = 0 ∧ response.stdout = ['\x01'] := by
  have reads : sourceText ['p'] (lookUp strayDirectory [] ['p']) = .ok ['+', '.', '\n', ']'] := rfl
  have readsInput : sourceText ['-'] (lookUp strayDirectory [0x2b, 0x2e] ['-']) =
      .ok ['+', '.'] := rfl
  have planned : plan
      ["run".toList, "--dump".toList, "1".toList, "--stats".toList, "p".toList]
        (some "9".toList) = .ok ⟨['p'], false, .run (some 9) (.number 1) true⟩ := rfl
  have plannedReading : plan ["parse".toList, "p".toList] none =
      .ok ⟨['p'], false, .parse false⟩ := rfl
  have plannedInput : plan ["run".toList, "--dump".toList, "1".toList, "-".toList] none =
      .ok ⟨['-'], false, .run none (.number 1) false⟩ := rfl
  have tree : Tree.read ['+', '.', '\n', ']'] =
      .ok (.leaf ['+'] (.leaf ['.'] (.leaf ['\n'] (.leaf [']'] .nil)))) := by cbv
  constructor
  · rcases runs_records_and_answers_agree reads with ⟨records, runs, reading, readings⟩
    rcases records (some 9) 0 with ⟨within, _, summing⟩
    rcases summing _ execute_print_and_stray with ⟨record, summed, sums⟩
    rcases (runs _ _ _ _ _ 0 0 planned).2 _ record execute_print_and_stray summed with
      ⟨response, answered, shown⟩
    rcases readings _ _ _ 0 0 plannedReading with ⟨readingResponse, answeredReading, shownReading⟩
    have bad : record.ok = false := by
      apply Bool.eq_false_iff.mpr
      intro good
      cases sums.ok.mp good
    have told : record = ⟨none, none, [], unterminatedMessage, 3⟩ := sums.eq_of_failed rfl
    refine ⟨reads, ?_, ⟨response, answered, (shown.failed bad).1, (shown.failed bad).2,
      shown.unmatched 3 rfl⟩, readingResponse, answeredReading, ?_⟩
    · rw [← told, ← summed]
      exact within
    · exact shownReading.finished (reading.ok.mpr ⟨_, tree⟩)
  · rcases runs_records_and_answers_agree readsInput with ⟨records, runs, _, _⟩
    rcases records none 2 with ⟨within, _, summing⟩
    rcases summing _ execute_print with ⟨record, summed, sums⟩
    rcases (runs _ _ _ _ _ 2 0 plannedInput).2 _ record execute_print summed with
      ⟨response, answered, shown⟩
    have good : record.ok = true := sums.ok.mpr rfl
    have told : record = ⟨some 0, some Tape.blank.increment.cells, ['\x01'], [], 2⟩ :=
      sums.eq_of_finished rfl
    refine ⟨readsInput, ?_, response, answered, (shown.finished good).1,
      (shown.finished good).2.2⟩
    rw [← told, ← summed]
    exact within

end CommandLine
end LoopTape
