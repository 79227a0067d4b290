namespace LoopTape
namespace CommandLine

/-!
# Pages

The command line is described on three pages: one for the program as a whole,
one for running a program text and one for reading its loop structure.  Each
page has a name, a usage line and a text of help, and each knows the options
that may be given on it.

The texts are laid out for a screen of eighty columns.
-/

/-- The pages of the command line. -/
inductive Page where
  | main
  | run
  | parse
  deriving DecidableEq

/-- The options of all pages. -/
inductive Flag where
  | help
  | verbose
  | maxSteps
  | dump
  | stats
  | tree
  deriving DecidableEq

namespace Flag

/-- The letter that stands for an option after a single dash. -/
def letter? : Flag -> Option Char
  | help => some 'h'
  | verbose => some 'v'
  | _ => none

/-- The name of an option after two dashes. -/
def word : Flag -> List Char
  | help => "help".toList
  | verbose => "verbose".toList
  | maxSteps => "max-steps".toList
  | dump => "dump".toList
  | stats => "stats".toList
  | tree => "tree".toList

/-- Whether an option is given a value. -/
def takesValue : Flag -> Bool
  | maxSteps | dump => true
  | _ => false

/-- The name of an option with its two dashes. -/
def long (flag : Flag) : List Char := '-' :: '-' :: flag.word

/-- All spellings of an option, as errors name it. -/
def spelling (flag : Flag) : List Char :=
  match flag.letter? with
  | some letter => '-' :: letter :: '/' :: flag.long
  | none => flag.long

end Flag

namespace Page

/-- The options of a page, in the order in which they are described. -/
def flags : Page -> List Flag
  | main => [.help, .verbose]
  | run => [.help, .maxSteps, .dump, .stats]
  | parse => [.help, .tree]

/-- The name under which a page reports errors. -/
def program : Page -> List Char
  | main => "bfcore".toList
  | run => "bfcore run".toList
  | parse => "bfcore parse".toList

/-- What a page needs besides its options. -/
def argument : Page -> List Char
  | main => "command".toList
  | run | parse => "file".toList

/-- The usage line of a page, with its line end. -/
def usage : Page -> List Char
  | main => "usage: bfcore [-h] [-v] \x7brun,parse\x7d ...\n".toList
  | run =>
    "usage: bfcore run [-h] [--max-steps MAX_STEPS] [--dump DUMP] [--stats] file\n".toList
  | parse => "usage: bfcore parse [-h] [--tree] file\n".toList

/-- What the help says below the usage line. -/
def details : Page -> List String
  | main =>
    [ "Parse and evaluate Brainfuck programs on a 30000-cell tape.",
      "",
      "positional arguments:",
      "  \x7brun,parse\x7d",
      "    run          Evaluate a program and print its output",
      "    parse        Check loop structure without running",
      "",
      "options:",
      "  -h, --help     show this help message and exit",
      "  -v, --verbose  Enable debug logging" ]
  | run =>
    [ "positional arguments:",
      "  file                  Source file, or - for stdin",
      "",
      "options:",
      "  -h, --help            show this help message and exit",
      "  --max-steps MAX_STEPS",
      "                        Abort after this many instructions (default:",
      "                        $BFCORE_STEP_LIMIT, else unbounded)",
      "  --dump DUMP           Print the first N tape cells after the run",
      "  --stats               Report timing and step count" ]
  | parse =>
    [ "positional arguments:",
      "  file        Source file, or - for stdin",
      "",
      "options:",
      "  -h, --help  show this help message and exit",
      "  --tree      Print the nested tree" ]

/-- The help of a page. -/
def help (page : Page) : List Char :=
  page.usage ++ '\n' :: page.details.flatMap (fun line => line.toList ++ ['\n'])

/-- The page of a command. -/
def ofCommand? (command : List Char) : Option Page :=
  if command = "run".toList then some run
  else if command = "parse".toList then some parse
  else none

end Page
end CommandLine
end LoopTape
