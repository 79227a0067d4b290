import LoopTape.Proofs.CommandLine.Agreement
import LoopTape.Proofs.CommandLine.Limits
import LoopTape.Proofs.CommandLine.Rows
import LoopTape.Proofs.Text.Numerals

namespace LoopTape
namespace CommandLine

/-!
# Dumps are read back

Whatever dump a list of numbers has gives the list back.  A list has none if one of its
numbers has more digits than may be written.

A run that comes to the end of its text shows the first cells of its tape in this way, as
many as were asked for and no more than the tape has.  The dump stands at the end of the
second channel, on lines of its own.  How many cells are asked for is a word of the command
line, and this word has the same limit of digits.  An amount with more digits is refused
before there is a run, although a tape has few cells and would have been shown whole.
-/

/-! ## The end of the second channel -/

/-- Nothing, or a text that stops at a line end. -/
def WholeLines (text : List Char) : Prop := text = [] ∨ text.getLast? = some '\n'

theorem wholeLines_concat (text : List Char) : WholeLines (text ++ ['\n']) :=
  Or.inr List.getLast?_concat

theorem WholeLines.append {text later : List Char} (first : WholeLines text)
    (second : WholeLines later) : WholeLines (text ++ later) := by
  rcases second with rfl | ends
  · rwa [List.append_nil]
  · apply Or.inr
    rw [List.getLast?_append, ends, Option.some_or]

theorem wholeLines_logLines (verbose : Bool) (events : List Record.Event) :
    WholeLines (logLines verbose events) := by
  unfold logLines
  split
  · induction events with
    | nil => exact Or.inl rfl
    | cons event later inductionHypothesis =>
        rw [List.flatMap_cons]
        exact (wholeLines_concat event.line).append inductionHypothesis
  · exact Or.inl rfl

theorem wholeLines_statisticsText (elapsed : Nat) (state : Machine.State) :
    WholeLines (statisticsText elapsed state) := wholeLines_concat _

/-- The cells of a tape that a dump of so many cells shows, as numbers. -/
def shownCells (count : Int) (tape : Tape) : List Int :=
  (tape.cells.toList.take (min count.toNat Tape.size)).map (fun cell => (cell.toNat : Int))

theorem firstCells_eq_shownCells (count : Int) (tape : Tape) :
    firstCells count tape = shownCells count tape := by
  have whole : tape.cells.toList.take Tape.size = tape.cells.toList :=
    List.take_of_length_le (Nat.le_of_eq tape.cells.length_toList)
  rw [firstCells, shownCells, ← List.take_take, whole]

theorem length_shownCells (count : Int) (tape : Tape) :
    (shownCells count tape).length = min count.toNat Tape.size := by
  rw [shownCells, List.length_map, List.length_take, tape.cells.length_toList, Nat.min_assoc,
    Nat.min_self]

/-- How a run that ended in a state is answered when cells are asked for. -/
structure DumpsCells (count : Int) (state : Machine.State) (response : Response) : Prop where
  succeeds : response.exit = 0
  printed : response.stdout = state.output
  counted : (shownCells count state.tape).length = min count.toNat Tape.size
  dumped : Exists fun front => Exists fun dump =>
    response.stderr = front ++ (dump ++ ['\n']) ∧ WholeLines front ∧
      readDump? dump = some (shownCells count state.tape)

theorem dumpsCells_finishedResponse (verbose stats : Bool) (count : Int) (machine : Machine)
    (elapsed : Nat) (finish : Machine.Finish) :
    DumpsCells count finish.state
      (finishedResponse verbose stats
        (plainDump (firstCells count finish.state.tape) ++ ['\n']) machine elapsed finish) := by
  have statistics : WholeLines (if stats then statisticsText elapsed finish.state else []) := by
    split
    · exact wholeLines_statisticsText elapsed finish.state
    · exact Or.inl rfl
  have logged := wholeLines_logLines verbose (Record.runningEvents machine finish)
  refine ⟨rfl, rfl, length_shownCells count _, _, plainDump (firstCells count finish.state.tape),
    rfl, logged.append statistics, ?_⟩
  rw [readDump?_plainDump, firstCells_eq_shownCells]

/-! ## A command line that asks for a dump -/

/-- A word without a dash in front, or a single dash. -/
def Undashed (word : List Char) : Prop := word = standardInput ∨ word.head? ≠ some '-'

/-- Such a word is plain on every page. -/
theorem Undashed.meaning {word : List Char} (plain : Undashed word) (page : Page) :
    page.meaning word = .ok .plain := by
  rcases plain with rfl | undashed
  · rfl
  · unfold Page.meaning
    split
    · exact absurd rfl undashed
    · rfl

theorem readMeanings_undashed {word : List Char} (plain : Undashed word) (page : Page)
    (later : List (List Char)) :
    readMeanings page (word :: later) =
      (readMeanings page later).map (fun words => ⟨word, .plain⟩ :: words) := by
  apply readMeanings_cons _ (plain.meaning page)
  rintro rfl
  rcases plain with impossible | undashed
  · cases impossible
  · exact undashed rfl

/-- The main page does not know the option and passes over it.  Only the page of the command
takes the next word for its amount. -/
theorem readArguments_dump {amount file : List Char} (undashed : Undashed amount)
    (plain : Undashed file) :
    readArguments ["run".toList, "--dump".toList, amount, file] =
      (Choices.applyValue .run {} .dump amount).map (fun choices => ⟨.run, file, choices⟩) := by
  have single : "--dump".toList ≠ twoDashes := by decide
  have words (page : Page) : readMeanings page [amount, file] =
      .ok [⟨amount, .plain⟩, ⟨file, .plain⟩] := by
    rw [readMeanings_undashed undashed, readMeanings_undashed plain]
    rfl
  have opening := @readArguments_opening [] (List.forall_mem_nil MayOpen) "run".toList .run
    rfl rfl ["--dump".toList, amount, file]
  have passed : readMeanings .main ["--dump".toList, amount, file] =
      .ok [⟨"--dump".toList, .unknown⟩, ⟨amount, .plain⟩, ⟨file, .plain⟩] := by
    rw [readMeanings_cons single rfl, words]
    rfl
  have understood : readMeanings .run ["--dump".toList, amount, file] =
      .ok [⟨"--dump".toList, .option .dump false none⟩, ⟨amount, .plain⟩, ⟨file, .plain⟩] := by
    rw [readMeanings_cons single rfl, words]
    rfl
  rw [List.nil_append] at opening
  rw [opening, passed]
  dsimp only [Except.bind, readMeanings, Page.meanings, Except.mapError, readWords]
  rw [readCommand, readPage_eq_bind, understood]
  dsimp only [Except.bind]
  rw [readWords.eq_def]
  cases effect : Choices.applyValue .run {} .dump amount with
  | error stop =>
      simp only [Flag.takesValue, if_true, effect]
      rfl
  | ok choices =>
      simp only [Flag.takesValue, if_true, effect]
      rfl

theorem plan_dump {amount file : List Char} {count : Int}
    (reads : Text.integer? amount = some count) (asked : 0 < count) (plain : Undashed file)
    {environment : Option (List Char)} {limit : Option Nat}
    (limited : stepLimit none environment = .ok limit) :
    plan ["run".toList, "--dump".toList, amount, file] environment =
      .ok ⟨file, false, .run limit (.number count) false⟩ := by
  have undashed : Undashed amount := Or.inr (Text.head?_ne_dash_of_integer? reads asked)
  rw [plan, readArguments_dump undashed plain, Choices.applyValue, ofWord?_of_integer? reads]
  dsimp only [Except.map, Task.plan, Task.runPlan]
  rw [limited]

/-- The answer to an amount that cannot be read does not wait for the file. -/
theorem answer_dump_refused {amount file : List Char} (refused : Text.integer? amount = none)
    (undashed : amount.head? ≠ some '-') (plain : Undashed file)
    (environment : Option (List Char)) (directory : Files.Directory) (input : List UInt8)
    (patience elapsed : Nat) :
    answer ["run".toList, "--dump".toList, amount, file] environment directory input patience
        elapsed =
      some (.answered (Stop.response (.refused .run (.invalidInteger .dump amount)))) := by
  have notDashes : amount ≠ twoDashes := by
    rintro rfl
    exact undashed rfl
  have noAmount : Amount.ofWord? amount = none := by
    rw [Amount.ofWord?, if_neg notDashes, refused]
    rfl
  have stopped : plan ["run".toList, "--dump".toList, amount, file] environment =
      .error (.answered (Stop.response (.refused .run (.invalidInteger .dump amount)))) := by
    rw [plan, readArguments_dump (Or.inr undashed) plain, Choices.applyValue, noAmount]
    rfl
  simp only [answer, stopped]

/-! ## Dumps within the limit -/

theorem all_isWritable {numbers : List Int}
    (short : forall number, number ∈ numbers -> number.natAbs < Nat.pow 10 4300) :
    numbers.all Text.isWritable = true :=
  List.all_eq_true.mpr fun number member => (Text.isWritable_iff number).mpr (short number member)

theorem dumpText_of_tooLong {numbers : List Int} {number : Int} (member : number ∈ numbers)
    (long : ¬ Text.isWritable number = true) : dumpText numbers = .error .tooManyDigits := by
  have refused : ¬ numbers.all Text.isWritable = true :=
    fun all => long (List.all_eq_true.mp all number member)
  rw [dumpText_eq, if_neg refused]

theorem dumpText_pow {zeros : Nat} (many : Text.digitLimit ≤ zeros) :
    dumpText [((Nat.pow 10 zeros : Nat) : Int)] = .error .tooManyDigits :=
  dumpText_of_tooLong List.mem_cons_self (Text.not_isWritable_pow many)

theorem eq_plainDump_of_dumpText {numbers : List Int} {text : List Char}
    (printed : dumpText numbers = .ok text) : text = plainDump numbers := by
  rw [dumpText_eq] at printed
  split at printed
  · exact (Except.ok.inj printed).symm
  · cases printed

/-- A dump gives back the numbers it shows, so different numbers have different dumps.  All
rows but the last have eight numbers, and the last has one to eight.  There is a dump unless
a number has more than 4300 digits.  Every run that comes to the end of its text and is asked
for cells ends the second channel with a dump of as many cells as there are of them.  The
option, an amount and a file are enough to ask for such a run, and the numbers of at most
4300 digits are amounts, but no longer ones. -/
theorem dumps_are_read_back :
    dumpText [] = .ok [] ∧
    (forall numbers, (forall number, number ∈ numbers -> number.natAbs < Nat.pow 10 4300) ->
      Exists fun text => dumpText numbers = .ok text ∧ readDump? text = some numbers ∧
        (numbers ≠ [] -> Exists fun full => Exists fun last =>
          (Text.lines text).map (fun row => (row.splitOn ' ').length) =
              List.replicate full 8 ++ [last] ∧ 1 ≤ last ∧ last ≤ 8)) ∧
    (forall numbers number, number ∈ numbers -> Nat.pow 10 4300 ≤ number.natAbs ->
      dumpText numbers = .error .tooManyDigits) ∧
    (forall numbers others text, dumpText numbers = .ok text -> dumpText others = .ok text ->
      numbers = others) ∧
    (forall arguments environment directory input file source verbose limit count stats
        patience state,
      plan arguments environment = .ok ⟨file, verbose, .run limit (.number count) stats⟩ ->
        0 < count -> sourceText file (lookUp directory input file) = .ok source ->
          Machine.execute ⟨source, limit⟩ patience = some ⟨state, none⟩ ->
            forall elapsed, Exists fun response =>
              answer arguments environment directory input patience elapsed =
                  some (.answered response) ∧
                DumpsCells count state response) ∧
    (forall amount count file environment limit,
      Text.integer? amount = some count -> 0 < count -> Undashed file ->
        stepLimit none environment = .ok limit ->
          plan ["run".toList, "--dump".toList, amount, file] environment =
            .ok ⟨file, false, .run limit (.number count) false⟩) ∧
    (forall count : Int, count.natAbs < Nat.pow 10 4300 ->
      Text.integer? (Text.decimal count) = some count) ∧
    forall count : Int, Nat.pow 10 4300 ≤ count.natAbs ->
      Text.integer? (Text.decimal count) = none := by
  refine ⟨rfl, ?_, ?_, ?_, ?_, ?_, ?_, ?_⟩
  · intro numbers short
    refine ⟨plainDump numbers, ?_, readDump?_plainDump numbers, ?_⟩
    · rw [dumpText_eq, if_pos (all_isWritable short)]
    · intro nonempty
      rw [lengths_plainDump nonempty]
      exact (filled_dumpRows nonempty).exists_lengths
  · intro numbers number member long
    exact dumpText_of_tooLong member (Text.not_isWritable_of_le long)
  · intro numbers others text printed also
    apply Option.some.inj
    rw [← readDump?_plainDump numbers, ← eq_plainDump_of_dumpText printed,
      eq_plainDump_of_dumpText also, readDump?_plainDump]
  · intro arguments environment directory input file source verbose limit count stats patience
      state planned asked reads finished elapsed
    have answered := runEnding_finished verbose stats count ⟨source, limit⟩ elapsed state
    rw [if_pos asked] at answered
    refine ⟨_, ?_, dumpsCells_finishedResponse verbose stats count ⟨source, limit⟩ elapsed
      ⟨state, none⟩⟩
    simp only [answer, planned, Plan.ending, reads, Job.ending, finished, Option.map_some,
      answered]
  · intro amount count file environment limit reads asked plain limited
    exact plan_dump reads asked plain limited
  · intro count short
    rw [Text.integer?_decimal, if_pos ((Text.isWritable_iff count).mpr short)]
  · intro count long
    rw [Text.integer?_decimal, if_neg (Text.not_isWritable_of_le long)]

/-- Two numbers, one of them below zero, and a run that counts the first cell up and is asked
for nine cells. -/
theorem dump_of_nine_cells :
    (Exists fun text => dumpText [-7, 0] = .ok text ∧ readDump? text = some [-7, 0]) ∧
      Text.integer? ['9'] = some 9 ∧
      (Exists fun response =>
        answer ["run".toList, "--dump".toList, ['9'], ['-']] none [] [0x2b] 1 0 =
            some (.answered response) ∧
          DumpsCells 9 ⟨Tape.blank.increment, 1, #[], 1⟩ response) ∧
      shownCells 9 Tape.blank.increment = [1, 0, 0, 0, 0, 0, 0, 0, 0] := by
  have reads : Text.integer? ['9'] = some 9 := by decide
  have finished : Machine.execute ⟨['+'], none⟩ 1 =
      some ⟨⟨Tape.blank.increment, 1, #[], 1⟩, none⟩ := rfl
  have writable : forall number, number ∈ [-7, 0] -> Text.isWritable number = true := by
    decide +kernel
  rcases dumps_are_read_back with ⟨_, dumps, _, _, answers, plans, _⟩
  refine ⟨?_, reads, ?_, ?_⟩
  · rcases dumps [-7, 0] (fun number member =>
      (Text.isWritable_iff number).mp (writable number member)) with ⟨text, printed, read, _⟩
    exact ⟨text, printed, read⟩
  · exact answers _ none [] [0x2b] ['-'] ['+'] false none 9 false 1 _
      (plans ['9'] 9 ['-'] none none reads (by decide) (Or.inl rfl) rfl) (by decide) rfl finished 0
  · rfl

/-- One list without a dump is enough for dumps not to be read back without exception. -/
theorem not_all_read_back {numbers : List Int}
    (refused : dumpText numbers = .error .tooManyDigits) :
    ¬ (forall numbers, Exists fun text =>
      dumpText numbers = .ok text ∧ readDump? text = some numbers) := by
  intro claimed
  rcases claimed numbers with ⟨text, printed, _⟩
  rw [refused] at printed
  cases printed

/-- The least number of 4301 digits has no dump.  It is no amount either, and a run that
would have shown its whole tape is refused. -/
theorem no_dump_of_too_long_number :
    dumpText [((Nat.pow 10 4300 : Nat) : Int)] = .error .tooManyDigits ∧
      ¬ (forall numbers, Exists fun text =>
        dumpText numbers = .ok text ∧ readDump? text = some numbers) ∧
      Text.decimal ((Nat.pow 10 4300 : Nat) : Int) = '1' :: List.replicate 4300 '0' ∧
      Exists fun response =>
        answer ["run".toList, "--dump".toList, '1' :: List.replicate 4300 '0', "p.bf".toList]
            none [(["p.bf".toList], .file [0x2b])] [] 1 0 = some (.answered response) ∧
          response.exit = 2 ∧ response.stdout = [] := by
  have many : Text.digitLimit ≤ 4300 := Nat.le_of_eq Text.digitLimit_eq
  have unread := Text.integer?_one_zeros many
  have undashed : ('1' :: List.replicate 4300 '0').head? ≠ some '-' := by
    intro impossible
    cases Option.some.inj impossible
  have plain : Undashed "p.bf".toList := Or.inr (by decide)
  refine ⟨?_, ?_, ?_, _, answer_dump_refused unread undashed plain _ _ _ 1 0, rfl, rfl⟩
  · apply dumpText_pow
    exact many
  · exact not_all_read_back (dumpText_pow many)
  · apply Text.decimal_pow

end CommandLine
end LoopTape
