import LoopTape.CommandLine.Word
import LoopTape.Text.Numeral
import LoopTape.Text.Quoted

namespace LoopTape
namespace CommandLine

/-!
# Reading arguments

A page goes through its words in order.  Options take effect as they are met:
help ends the reading at once, and a value that is no integer is an error at
once.  Each page also has one place to fill.  The place of the main page takes
a command together with all words that follow it, and these are then the words
of the command's own page.  The place of the other pages takes one file.

What is left over, unknown options included, is reported only at the end, and
always by the main page.  A place that has not been filled is reported first.

Two dashes are dropped from what an option or a place has been given.  For a
place this is what makes the words after them plain.  For an option it means
that two dashes attached to its name leave it without an amount, which is no
error as long as nobody asks for the amount.
-/

/-- The words that a page refuses, and why. -/
inductive Complaint where
  /-- The place of the page has not been filled. -/
  | required
  | invalidCommand (word : List Char)
  | unrecognized (words : List (List Char))
  | ambiguous (ambiguity : Ambiguity)
  | missingValue (flag : Flag)
  | invalidInteger (flag : Flag) (word : List Char)
  /-- A text is attached to an option that takes none. -/
  | ignoredText (flag : Flag) (text : List Char)
  deriving DecidableEq

/-- The words of a complaint on a page. -/
def Complaint.message (page : Page) : Complaint -> List Char
  | required => "the following arguments are required: ".toList ++ page.argument
  | invalidCommand word =>
    "argument command: invalid choice: ".toList ++ Text.quoted word ++
      " (choose from 'run', 'parse')".toList
  | unrecognized words => "unrecognized arguments: ".toList ++ [' '].intercalate words
  | ambiguous ambiguity =>
    "ambiguous option: ".toList ++ ambiguity.word ++ " could match ".toList ++
      [',', ' '].intercalate (ambiguity.matching.map Flag.long)
  | missingValue flag =>
    "argument ".toList ++ flag.spelling ++ ": expected one argument".toList
  | invalidInteger flag word =>
    "argument ".toList ++ flag.spelling ++ ": invalid int value: ".toList ++ Text.quoted word
  | ignoredText flag text =>
    "argument ".toList ++ flag.spelling ++ ": ignored explicit argument ".toList ++
      Text.quoted text

/-- What an option that takes a value has been given. -/
inductive Amount where
  | number (value : Int)
  /-- Two dashes and nothing else, of which nothing is left. -/
  | dropped
  deriving DecidableEq

/-- The amount that a word stands for. -/
def Amount.ofWord? (word : List Char) : Option Amount :=
  if word = twoDashes then some .dropped else (Text.integer? word).map .number

/-- What the options have settled so far. -/
structure Choices where
  verbose : Bool := false
  maxSteps : Option Amount := none
  dump : Amount := .number 0
  stats : Bool := false
  tree : Bool := false
  deriving DecidableEq

/-- Why the reading of arguments ends without a task. -/
inductive Stop where
  | help (page : Page)
  | refused (page : Page) (complaint : Complaint)
  deriving DecidableEq

/-- What a page has made of its words. -/
structure Progress where
  choices : Choices
  /-- The words in the place of the page, once it has been filled. -/
  place : Option (List (List Char)) := none
  leftOver : List (List Char) := []
  deriving DecidableEq

/-- Let an option that takes no value have its effect. -/
def Choices.apply (page : Page) (choices : Choices) : Flag -> Except Stop Choices
  | .help => .error (.help page)
  | .verbose => .ok { choices with verbose := true }
  | .stats => .ok { choices with stats := true }
  | .tree => .ok { choices with tree := true }
  | .maxSteps | .dump => .ok choices

/-- Let several options have their effects in order. -/
def Choices.applyAll (page : Page) (choices : Choices) : List Flag -> Except Stop Choices
  | [] => .ok choices
  | flag :: later =>
    match choices.apply page flag with
    | .error stop => .error stop
    | .ok next => next.applyAll page later

/-- Let an option take its value. -/
def Choices.applyValue (page : Page) (choices : Choices) (flag : Flag) (word : List Char) :
    Except Stop Choices :=
  match Amount.ofWord? word with
  | none => .error (.refused page (.invalidInteger flag word))
  | some amount =>
    match flag with
    | .maxSteps => .ok { choices with maxSteps := some amount }
    | .dump => .ok { choices with dump := amount }
    | _ => .ok choices

/-- The options given by a letter and the letters attached to it.  The option
before a letter that stands for no option is blamed for the text from there. -/
def lettered (page : Page) (flag : Flag) : List Char -> Except Stop (List Flag)
  | [] => .ok [flag]
  | letter :: rest =>
    match page.flagWithLetter? letter with
    | none => .error (.refused page (.ignoredText flag (letter :: rest)))
    | some next => (lettered page next rest).map (fun flags => flag :: flags)

/-- The options that a word gives, when none of them takes a value. -/
def attachedFlags (page : Page) (flag : Flag) (byLetter : Bool) :
    Option (List Char) -> Except Stop (List Flag)
  | none => .ok [flag]
  | some text =>
    if byLetter && !text.isEmpty then lettered page flag text
    else .error (.refused page (.ignoredText flag text))

/-- Go through the words of a page. -/
def readWords (page : Page) (progress : Progress) : List Word -> Except Stop Progress
  | [] => .ok progress
  | ⟨text, .unknown⟩ :: rest =>
    readWords page { progress with leftOver := progress.leftOver ++ [text] } rest
  | ⟨_, .option flag byLetter attached⟩ :: rest =>
    if flag.takesValue then
      match attached with
      | some value =>
        match progress.choices.applyValue page flag value with
        | .error stop => .error stop
        | .ok choices => readWords page { progress with choices := choices } rest
      | none =>
        match rest with
        | ⟨value, .plain⟩ :: rest =>
          match progress.choices.applyValue page flag value with
          | .error stop => .error stop
          | .ok choices => readWords page { progress with choices := choices } rest
        | _ => .error (.refused page (.missingValue flag))
    else
      match attachedFlags page flag byLetter attached with
      | .error stop => .error stop
      | .ok flags =>
        match progress.choices.applyAll page flags with
        | .error stop => .error stop
        | .ok choices => readWords page { progress with choices := choices } rest
  | ⟨text, .plain⟩ :: rest =>
    if progress.place.isSome then
      readWords page { progress with leftOver := progress.leftOver ++ [text] } rest
    else if page = .main then
      .ok { progress with place := some (text :: rest.map Word.text) }
    else
      match rest with
      | ⟨_, .dashes⟩ :: rest => readWords page { progress with place := some [text] } rest
      | rest => readWords page { progress with place := some [text] } rest
  | ⟨text, .dashes⟩ :: rest =>
    match rest with
    | ⟨first, .plain⟩ :: rest =>
      if progress.place.isSome then
        readWords page
          { progress with leftOver := progress.leftOver ++ [text, first] } rest
      else if page = .main then
        .ok { progress with place := some (text :: first :: rest.map Word.text) }
      else readWords page { progress with place := some [first] } rest
    | rest => readWords page { progress with leftOver := progress.leftOver ++ [text] } rest

/-- Read the words of one page.  Its place must have been filled. -/
def readPage (page : Page) (choices : Choices) (texts : List (List Char)) :
    Except Stop (Progress × List (List Char)) :=
  match page.meanings texts with
  | .error ambiguity => .error (.refused page (.ambiguous ambiguity))
  | .ok words =>
    match readWords page { choices := choices } words with
    | .error stop => .error stop
    | .ok progress =>
      match progress.place with
      | none => .error (.refused page .required)
      | some place => .ok (progress, place)

/-- The task that a command line asks for: a page other than the main one, the
file to work on, and what the options have settled. -/
structure Task where
  page : Page
  file : List Char
  choices : Choices
  deriving DecidableEq

/-- Read a whole command line.  A command is looked up when the main page comes
to it, so its own page complains before the main page does. -/
def readArguments (texts : List (List Char)) : Except Stop Task :=
  match readPage .main {} texts with
  | .error stop => .error stop
  | .ok (main, place) =>
    match place with
    | [] => .error (.refused .main .required)
    | command :: words =>
      match Page.ofCommand? command with
      | none => .error (.refused .main (.invalidCommand command))
      | some page =>
        match readPage page main.choices words with
        | .error stop => .error stop
        | .ok (progress, file) =>
          match main.leftOver ++ progress.leftOver with
          | [] => .ok ⟨page, file.headD [], progress.choices⟩
          | leftOver => .error (.refused .main (.unrecognized leftOver))

end CommandLine
end LoopTape
