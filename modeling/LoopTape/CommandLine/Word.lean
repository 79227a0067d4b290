import LoopTape.CommandLine.Page
import LoopTape.Text.Digit

namespace LoopTape
namespace CommandLine

/-!
# Words of a command line

Before a page acts on its words it looks at each of them alone.  A word that
begins with a dash is meant as an option, with four exceptions: a single dash,
a negative number, a word with a space in it, and every word after a word of
two dashes.

An option may be given by its letter, by its name, or by any beginning of its
name that fits no other option of the page.  A value may follow the name after
an equals sign, and further letters may follow a letter.  An option that the
page does not know is left for later.
-/

/-- What a word is meant as. -/
inductive Meaning where
  /-- The two dashes that make all later words plain. -/
  | dashes
  | plain
  /-- An option of the page; whether it was given by its letter; and the text
  that is attached to it, if any is. -/
  | option (flag : Flag) (byLetter : Bool) (attached : Option (List Char))
  /-- An option that the page does not know. -/
  | unknown
  deriving DecidableEq

/-- A word together with its meaning. -/
structure Word where
  text : List Char
  meaning : Meaning
  deriving DecidableEq

/-- A word that fits more than one option of a page. -/
structure Ambiguity where
  word : List Char
  matching : List Flag
  deriving DecidableEq

/-- The option of a page with a given letter. -/
def Page.flagWithLetter? (page : Page) (letter : Char) : Option Flag :=
  page.flags.find? (fun flag => flag.letter? == some letter)

/-- The option of a page that is spelt exactly so, and whether by its letter. -/
def Page.exactFlag? (page : Page) (spelling : List Char) : Option (Flag × Bool) :=
  match spelling with
  | ['-', letter] => (page.flagWithLetter? letter).map (fun flag => (flag, true))
  | spelling => (page.flags.find? (fun flag => flag.long == spelling)).map (fun flag => (flag, false))

/-- A word cut at its first equals sign: what stands before it, and what
stands after it if there is one. -/
def cutAtEquals : List Char -> List Char × Option (List Char)
  | [] => ([], none)
  | '=' :: rest => ([], some rest)
  | character :: rest =>
    let cut := cutAtEquals rest
    (character :: cut.1, cut.2)

/-- Whether a text is made of one or more digits. -/
def allDigits (text : List Char) : Bool :=
  !text.isEmpty && text.all (fun character => (Text.digit? character).isSome)

/-- Whether a word is a negative number: a dash and digits, with a point
before the last of them allowed.  A line end may follow the number. -/
def isNegativeNumber (word : List Char) : Bool :=
  let number := if word.getLast? = some '\n' then word.dropLast else word
  match number with
  | '-' :: rest =>
    allDigits rest ||
      match rest.dropWhile (fun character => (Text.digit? character).isSome) with
      | '.' :: fraction => allDigits fraction
      | _ => false
  | _ => false

/-- The meaning of a word that begins with a dash but is no exact option. -/
def Page.abbreviated (page : Page) (word : List Char) : Except Ambiguity (Option Meaning) :=
  match word with
  | '-' :: '-' :: _ =>
    let cut := cutAtEquals word
    match page.flags.filter (fun flag => cut.1.isPrefixOf flag.long) with
    | [] => .ok none
    | [flag] => .ok (some (.option flag false cut.2))
    | matching => .error ⟨word, matching⟩
  | '-' :: letter :: attached =>
    .ok ((page.flagWithLetter? letter).map (fun flag => .option flag true (some attached)))
  | _ => .ok none

/-- The meaning of a word, dashes aside. -/
def Page.meaning (page : Page) (word : List Char) : Except Ambiguity Meaning :=
  match word with
  | '-' :: _ :: _ =>
    match page.exactFlag? word with
    | some (flag, byLetter) => .ok (.option flag byLetter none)
    | none =>
      let cut := cutAtEquals word
      match cut.2.bind (fun attached =>
          (page.exactFlag? cut.1).map (fun found => (found, attached))) with
      | some ((flag, byLetter), attached) => .ok (.option flag byLetter (some attached))
      | none =>
        (page.abbreviated word).map (fun found =>
          match found with
          | some meaning => meaning
          | none => if isNegativeNumber word || word.contains ' ' then .plain else .unknown)
  | _ => .ok .plain

/-- The word after which every word is plain. -/
def twoDashes : List Char := ['-', '-']

/-- The meanings of all words.  After two dashes every word is plain. -/
def Page.meanings (page : Page) : List (List Char) -> Except Ambiguity (List Word)
  | [] => .ok []
  | text :: later =>
    if text = twoDashes then
      .ok (⟨text, .dashes⟩ :: later.map (fun word => ⟨word, .plain⟩))
    else
      match page.meaning text with
      | .error ambiguity => .error ambiguity
      | .ok meaning => (page.meanings later).map (fun words => ⟨text, meaning⟩ :: words)

end CommandLine
end LoopTape
