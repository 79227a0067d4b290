import LoopTape.CommandLine.Response
import LoopTape.Proofs.CommandLine.Openings
import LoopTape.Proofs.Machine.Ending
import LoopTape.Proofs.Text.Numerals

namespace LoopTape
namespace CommandLine

/-!
# A limit from the option and from the environment

An option reads its value as it stands.  The environment is stripped first, and a text of
which nothing is left asks for no limit.  Both accept the same integers, since stripping
takes nothing from a text that can be read except what reading would have skipped.  A text
that only stripping makes readable is accepted by the environment alone, so the hypothesis
here is about the text before it is stripped.

The option is put right behind the command.  What it gives is then there while all later
words are read, and a later option for the limit overrides it just as it overrides the
environment.  Neither the words behind the command nor the words before it need be well
formed: a complaint about them is the same with the option and without it, because the option
itself is understood and the main page passes over it.
-/

/-! ## A limit that no option has given -/

/-- Choices with a limit where they had none. -/
def Choices.supplied (amount : Amount) (choices : Choices) : Choices :=
  { choices with maxSteps := choices.maxSteps.or (some amount) }

def Progress.supplied (amount : Amount) (progress : Progress) : Progress :=
  { progress with choices := progress.choices.supplied amount }

def Task.supplied (amount : Amount) (task : Task) : Task :=
  { task with choices := task.choices.supplied amount }

variable {page : Page} (amount : Amount)

theorem apply_supplied (choices : Choices) (flag : Flag) :
    (choices.supplied amount).apply page flag =
      (choices.apply page flag).map (Choices.supplied amount) := by
  cases flag <;> rfl

theorem applyAll_supplied (choices : Choices) (flags : List Flag) :
    (choices.supplied amount).applyAll page flags =
      (choices.applyAll page flags).map (Choices.supplied amount) := by
  induction flags generalizing choices with
  | nil => rfl
  | cons flag later inductionHypothesis =>
      rw [Choices.applyAll, Choices.applyAll, apply_supplied]
      cases choices.apply page flag with
      | error stop => rfl
      | ok next => exact inductionHypothesis next

/-- A limit that an option gives takes the place of one supplied before. -/
theorem applyValue_supplied (choices : Choices) (flag : Flag) (word : List Char) :
    (choices.supplied amount).applyValue page flag word =
      (choices.applyValue page flag word).map (Choices.supplied amount) := by
  unfold Choices.applyValue
  cases Amount.ofWord? word with
  | none => rfl
  | some given => cases flag <;> rfl

/-- A limit that is supplied does not change what the words are taken for. -/
theorem readWords_supplied (progress : Progress) (words : List Word) :
    readWords page (progress.supplied amount) words =
      (readWords page progress words).map (Progress.supplied amount) := by
  -- The reading meets the choices only through the three functions above, so every case is
  -- one of them and what is known of the rest.
  fun_induction readWords page progress words
  all_goals
    rw [readWords.eq_def]
    simp_all only [Progress.supplied, applyValue_supplied, applyAll_supplied, Except.map,
      if_true, if_false, Bool.false_eq_true]

theorem readPage_supplied (choices : Choices) (texts : List (List Char)) :
    readPage page (choices.supplied amount) texts =
      (readPage page choices texts).map fun (progress, place) =>
        (progress.supplied amount, place) := by
  rw [readPage_eq_bind, readPage_eq_bind]
  cases readMeanings page texts with
  | error stop => rfl
  | ok words =>
      change (readWords page (Progress.supplied amount { choices := choices }) words).bind _ =
        ((readWords page { choices := choices } words).bind _).map _
      rw [readWords_supplied]
      cases readWords page { choices := choices } words with
      | error stop => rfl
      | ok progress =>
          rcases progress with ⟨choices, _ | place, leftOver⟩ <;> rfl

/-! ## The word that gives a limit -/

/-- The option for the limit with a text attached to it. -/
def limitWord (text : List Char) : List Char := "--max-steps=".toList ++ text

theorem limitWord_ne_twoDashes (text : List Char) : limitWord text ≠ twoDashes := by
  intro same
  cases same

theorem meaning_limitWord_run (text : List Char) :
    Page.run.meaning (limitWord text) = .ok (.option .maxSteps false (some text)) := rfl

/-- The main page has no option that the word fits, not even two. -/
theorem exists_meaning_limitWord_main (text : List Char) :
    Exists fun meaning => Page.main.meaning (limitWord text) = .ok meaning :=
  ⟨_, rfl⟩

variable {text : List Char} {value : Int}

theorem ofWord?_of_integer? (reads : Text.integer? text = some value) :
    Amount.ofWord? text = some (.number value) := by
  have single : text ≠ twoDashes := by
    rintro rfl
    cases reads
  rw [Amount.ofWord?, if_neg single, reads]
  rfl

/-- Where no limit has been given yet, the word supplies one and does nothing else. -/
theorem readPage_limitWord (reads : Text.integer? text = some value) {choices : Choices}
    (unlimited : choices.maxSteps = none) (later : List (List Char)) :
    readPage .run choices (limitWord text :: later) =
      readPage .run (choices.supplied (.number value)) later := by
  have effect : choices.applyValue .run .maxSteps text = .ok (choices.supplied (.number value)) := by
    rw [Choices.applyValue, ofWord?_of_integer? reads, Choices.supplied, unlimited]
    rfl
  rw [readPage_eq_bind, readPage_eq_bind,
    readMeanings_cons (limitWord_ne_twoDashes text) (meaning_limitWord_run text)]
  cases readMeanings .run later with
  | error stop => rfl
  | ok words =>
      change (readWords .run _ (⟨limitWord text, .option .maxSteps false (some text)⟩ :: words)).bind
        _ = _
      rw [readWords]
      simp only [Flag.takesValue, if_true, effect]
      rfl

theorem readCommand_limitWord (reads : Text.integer? text = some value) {opening : Progress}
    (unlimited : opening.choices.maxSteps = none) (later : List (List Char)) :
    readCommand .run opening (limitWord text :: later) =
      (readCommand .run opening later).map (Task.supplied (.number value)) := by
  rw [readCommand, readCommand, readPage_limitWord reads unlimited, readPage_supplied]
  cases readPage .run opening.choices later with
  | error stop => rfl
  | ok found =>
      rcases found with ⟨progress, file⟩
      dsimp only [Except.bind, Except.map, Progress.supplied]
      cases opening.leftOver ++ progress.leftOver <;> rfl

theorem readArguments_limitWord {front : List (List Char)}
    (opens : forall word, word ∈ front -> MayOpen word)
    (reads : Text.integer? text = some value) (later : List (List Char)) :
    readArguments (front ++ "run".toList :: limitWord text :: later) =
      (readArguments (front ++ "run".toList :: later)).map (Task.supplied (.number value)) := by
  rw [readArguments_opening opens rfl rfl, readArguments_opening opens rfl rfl]
  cases before : readMeanings .main front with
  | error stop => rfl
  | ok words =>
      rcases exists_meaning_limitWord_main text with ⟨meaning, means⟩
      rw [readMeanings_cons (limitWord_ne_twoDashes text) means]
      cases readMeanings .main later with
      | error stop => rfl
      | ok rest =>
          dsimp only [Except.bind, Except.map]
          cases reached : readWords .main { choices := {} } words with
          | error stop => rfl
          | ok opening =>
              have unlimited :=
                maxSteps_of_opening (opening_of_readMeanings opens before) reached
              exact readCommand_limitWord reads unlimited later

/-! ## The limit in the environment -/

theorem environmentLimit_of_integer? (reads : Text.integer? text = some value) :
    environmentLimit (some text) = .ok (some value) := by
  rcases Text.integer?_strip reads with ⟨nonempty, stripped⟩
  rw [environmentLimit, Option.getD_some]
  split
  · contradiction
  · rw [stripped]

/-- An environment with nothing but blanks is as good as none. -/
theorem environmentLimit_of_blank
    (blank : forall character, character ∈ text -> Text.isBlank character = true) :
    environmentLimit (some text) = environmentLimit none := by
  rw [environmentLimit, Option.getD_some, Text.strip_eq_nil blank]
  rfl

/-- A limit that a task has been supplied with is the limit that the environment would have
given. -/
theorem plan_supplied (reads : Text.integer? text = some value) (task : Task)
    (around : Option (List Char)) :
    (task.supplied (.number value)).plan around = task.plan (some text) := by
  rcases task with ⟨page, file, choices⟩
  have same : stepLimit (some value) around = stepLimit none (some text) := by
    simp only [stepLimit, environmentLimit_of_integer? reads]
  cases page with
  | main => rfl
  | parse => rfl
  | run =>
      rcases choices with ⟨verbose, given | given, dump, stats, tree⟩
      · simp only [Task.plan, Task.runPlan, Task.supplied, Choices.supplied, Option.none_or, same]
      · cases given <;> rfl

/-! ## Answers -/

/-- An answer depends on the words and on the environment only through the plan. -/
theorem answer_of_plan_eq {arguments others : List (List Char)}
    {environment around : Option (List Char)}
    (same : plan arguments environment = plan others around) (directory : Files.Directory)
    (input : List UInt8) (patience elapsed : Nat) :
    answer arguments environment directory input patience elapsed =
      answer others around directory input patience elapsed := by
  rw [answer, answer, same]

theorem plan_of_environmentLimit_eq {environment around : Option (List Char)}
    (same : environmentLimit environment = environmentLimit around)
    (arguments : List (List Char)) : plan arguments environment = plan arguments around := by
  unfold plan
  cases readArguments arguments with
  | error stop => rfl
  | ok task => simp only [Task.plan, Task.runPlan, stepLimit, same]

/-- How a run of a task within a budget is answered.  There is an answer whatever the patience
is, and it is that of the machine with the budget. -/
structure AnswersWithin (budget : Nat) (task : Task) (arguments : List (List Char))
    (environment : Option (List Char)) : Prop where
  unreadable : forall directory input fault patience elapsed,
    sourceText task.file (lookUp directory input task.file) = .error fault ->
      answer arguments environment directory input patience elapsed =
        some (unreadable task.file fault)
  runs : forall directory input source,
    sourceText task.file (lookUp directory input task.file) = .ok source ->
      Exists fun finish => forall patience elapsed,
        Machine.execute ⟨source, some budget⟩ patience = some finish ∧
          answer arguments environment directory input patience elapsed =
            some (runEnding task.choices.verbose task.choices.stats task.choices.dump
              ⟨source, some budget⟩ elapsed finish)

theorem answersWithin_of_plan {budget : Nat} {task : Task} {arguments : List (List Char)}
    {environment : Option (List Char)}
    (planned : plan arguments environment = .ok ⟨task.file, task.choices.verbose,
      .run (some budget) task.choices.dump task.choices.stats⟩) :
    AnswersWithin budget task arguments environment := by
  constructor
  · intro directory input fault patience elapsed unread
    simp only [answer, planned, Plan.ending, unread, Option.map_some]
  · intro directory input source read
    rcases @Machine.runFor_allowance ⟨source, some budget⟩ budget rfl .fresh with
      ⟨finish, finished⟩
    have executed : forall patience,
        Machine.execute ⟨source, some budget⟩ patience = some finish := fun _ => finished
    refine ⟨finish, fun patience elapsed => ⟨executed patience, ?_⟩⟩
    simp only [answer, planned, Plan.ending, read, Job.ending, executed, Option.map_some]

/-- An answer that says no more than that a limit is negative.  Neither a file nor the
standard input has a part in it. -/
def RefusesNegative (value : Int) (arguments : List (List Char))
    (environment : Option (List Char)) : Prop :=
  forall directory input patience elapsed,
    answer arguments environment directory input patience elapsed = some (.answered
      { exit := 1
        stderr := "Error: step limit must be >= 0, got ".toList ++ Text.decimal value ++ ['\n'] })

/-- A text in which an integer can be read gives a run the same limit by the option as by the
environment, and the option shields the run from whatever the environment holds.  What is
given is a budget, or it is negative and there is no run.  An environment with nothing but
blanks is one without a limit. -/
theorem limit_by_option_or_environment (reads : Text.integer? text = some value)
    {front : List (List Char)} (opens : forall word, word ∈ front -> MayOpen word)
    (later : List (List Char)) :
    (forall around directory input patience elapsed,
      answer (front ++ "run".toList :: limitWord text :: later) around directory input patience
          elapsed =
        answer (front ++ "run".toList :: later) (some text) directory input patience elapsed) ∧
    (forall task, readArguments (front ++ "run".toList :: later) = .ok task ->
      task.choices.maxSteps = none ->
        (forall budget : Nat, value = budget ->
          AnswersWithin budget task (front ++ "run".toList :: later) (some text)) ∧
        (value < 0 -> RefusesNegative value (front ++ "run".toList :: later) (some text))) ∧
    forall blank, (forall character, character ∈ blank -> Text.isBlank character = true) ->
      forall arguments directory input patience elapsed,
        answer arguments (some blank) directory input patience elapsed =
          answer arguments none directory input patience elapsed := by
  refine ⟨?_, ?_, ?_⟩
  · intro around
    apply answer_of_plan_eq
    rw [plan, plan, readArguments_limitWord opens reads]
    cases readArguments (front ++ "run".toList :: later) with
    | error stop => rfl
    | ok task => exact plan_supplied reads task around
  · intro task asked unlimited
    have planned : plan (front ++ "run".toList :: later) (some text) =
        task.runPlan (some value) none := by
      have command := page_of_readArguments opens rfl rfl asked
      simp only [plan, asked, Task.plan, command, unlimited, Task.runPlan, stepLimit,
        environmentLimit_of_integer? reads]
    constructor
    · rintro budget rfl
      apply answersWithin_of_plan
      have allowed : ¬ (budget : Int) < 0 := Int.not_lt.mpr (Int.natCast_nonneg budget)
      rw [planned, Task.runPlan, stepLimit, checkLimit, if_neg allowed]
      rfl
    · intro negative directory input patience elapsed
      rw [answer, planned, Task.runPlan, stepLimit, checkLimit, if_pos negative]
      rfl
  · intro blank blanks arguments
    exact answer_of_plan_eq (plan_of_environmentLimit_eq (environmentLimit_of_blank blanks) _)

/-- A text with blanks, a sign, an underscore and digits of two scripts is such a limit, and a
negative one is refused.  The environment holds no integer where the option shields the run
from it. -/
theorem limits_of_a_logged_run :
    Text.integer? [' ', '+', '1', '_', '\u0662', '\n'] = some 12 ∧
      Text.integer? ['-', '\u0663'] = some (-3) ∧ MayOpen "-v".toList ∧
      (forall directory input patience elapsed,
        answer ["-v".toList, "run".toList, limitWord [' ', '+', '1', '_', '\u0662', '\n'],
            "--stats".toList, ['-']] (some "ten".toList) directory input patience elapsed =
          answer ["-v".toList, "run".toList, "--stats".toList, ['-']]
            (some [' ', '+', '1', '_', '\u0662', '\n']) directory input patience elapsed) ∧
      AnswersWithin 12 ⟨.run, ['-'], { verbose := true, stats := true }⟩
        ["-v".toList, "run".toList, "--stats".toList, ['-']]
        (some [' ', '+', '1', '_', '\u0662', '\n']) ∧
      RefusesNegative (-3) ["run".toList, ['-']] (some ['-', '\u0663']) := by
  have positive : Text.integer? [' ', '+', '1', '_', '\u0662', '\n'] = some 12 := by decide
  have negative : Text.integer? ['-', '\u0663'] = some (-3) := by decide
  have logs : MayOpen "-v".toList := by decide
  have opens : forall word, word ∈ ["-v".toList] -> MayOpen word := by
    intro word member
    rw [List.mem_singleton.mp member]
    exact logs
  rcases limit_by_option_or_environment positive opens ["--stats".toList, ['-']] with
    ⟨same, tasks, _⟩
  rcases limit_by_option_or_environment negative (List.forall_mem_nil MayOpen) [['-']] with
    ⟨_, refusals, _⟩
  exact ⟨positive, negative, logs, same _, (tasks _ rfl rfl).1 12 rfl,
    (refusals ⟨.run, ['-'], {}⟩ rfl rfl).2 (by decide)⟩

end CommandLine
end LoopTape
