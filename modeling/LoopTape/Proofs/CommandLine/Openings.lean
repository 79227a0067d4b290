import LoopTape.CommandLine.Arguments

namespace LoopTape
namespace CommandLine

/-!
# Words before a command

The main page reads every word of the command line before it comes to the command, and only
then does the page of the command read the words behind it.  What stands behind the command
is thus read twice.  The main page makes nothing of those words, but it does look at what
each of them means, and a word that fits two of its own options is an error even where the
page of the command would understand it.

The options of the main page take no value, so none of them can take the command for one,
and none of them sets a limit.  Unknown options before the command are allowed here.  They
are held back until the page of the command is done.
-/

theorem exists_of_map_eq_ok {change : α -> β} {result : Except ε α} {value : β}
    (changed : result.map change = .ok value) :
    Exists fun found => result = .ok found ∧ change found = value := by
  cases result with
  | error fault => cases changed
  | ok found => exact ⟨found, rfl, Except.ok.inj changed⟩

theorem exists_of_bind_eq_ok {next : α -> Except ε β} {result : Except ε α} {value : β}
    (chained : result.bind next = .ok value) :
    Exists fun found => result = .ok found ∧ next found = .ok value := by
  cases result with
  | error fault => cases chained
  | ok found => exact ⟨found, rfl, chained⟩

/-! ## What a word can mean -/

/-- The meanings that leave the place of a page to a later word. -/
def Meaning.KeepsPlace (page : Page) (meaning : Meaning) : Prop :=
  meaning = .unknown ∨ Exists fun flag => Exists fun byLetter => Exists fun attached =>
    flag ∈ page.flags ∧ meaning = .option flag byLetter attached

theorem mem_flags_of_flagWithLetter? {page : Page} {letter : Char} {flag : Flag}
    (found : page.flagWithLetter? letter = some flag) : flag ∈ page.flags :=
  List.mem_of_find?_eq_some found

theorem mem_flags_of_exactFlag? {page : Page} {spelling : List Char} {found : Flag × Bool}
    (exact : page.exactFlag? spelling = some found) : found.1 ∈ page.flags := by
  unfold Page.exactFlag? at exact
  split at exact
  · rcases Option.map_eq_some_iff.mp exact with ⟨flag, named, rfl⟩
    exact mem_flags_of_flagWithLetter? named
  · rcases Option.map_eq_some_iff.mp exact with ⟨flag, named, rfl⟩
    exact List.mem_of_find?_eq_some named

theorem keepsPlace_of_abbreviated {page : Page} {word : List Char} {meaning : Meaning}
    (means : page.abbreviated word = .ok (some meaning)) : meaning.KeepsPlace page := by
  unfold Page.abbreviated at means
  split at means
  · dsimp only at means
    split at means
    · cases means
    · rename_i flag single
      cases means
      have member : flag ∈ page.flags.filter _ := single ▸ List.mem_singleton_self flag
      exact .inr ⟨flag, false, _, (List.mem_filter.mp member).1, rfl⟩
    · cases means
  · rcases Option.map_eq_some_iff.mp (Except.ok.inj means) with ⟨flag, named, rfl⟩
    exact .inr ⟨flag, true, _, mem_flags_of_flagWithLetter? named, rfl⟩
  · cases means

/-- A word that is not plain is an option of the page or unknown to it.  No single word means
the two dashes. -/
theorem keepsPlace_of_meaning {page : Page} {word : List Char} {meaning : Meaning}
    (means : page.meaning word = .ok meaning) (notPlain : meaning ≠ .plain) :
    meaning.KeepsPlace page := by
  unfold Page.meaning at means
  split at means
  · dsimp only at means
    split at means
    · rename_i exact
      cases means
      exact .inr ⟨_, _, _, mem_flags_of_exactFlag? exact, rfl⟩
    · split at means
      · rename_i cut
        cases means
        rcases Option.bind_eq_some_iff.mp cut with ⟨attached, _, named⟩
        rcases Option.map_eq_some_iff.mp named with ⟨found, exact, same⟩
        cases same
        exact .inr ⟨_, _, _, mem_flags_of_exactFlag? exact, rfl⟩
      · rcases exists_of_map_eq_ok means with ⟨found, short, meant⟩
        cases found with
        | some meaning =>
            cases meant
            exact keepsPlace_of_abbreviated short
        | none =>
            dsimp only at meant
            split at meant
            · exact absurd meant.symm notPlain
            · exact .inl meant.symm
  · exact absurd (Except.ok.inj means).symm notPlain

/-! ## Meanings of several words -/

theorem meanings_cons {page : Page} {word : List Char} {meaning : Meaning}
    (single : word ≠ twoDashes) (means : page.meaning word = .ok meaning)
    (later : List (List Char)) :
    page.meanings (word :: later) =
      (page.meanings later).map (fun words => ⟨word, meaning⟩ :: words) := by
  simp only [Page.meanings, if_neg single, means]

/-- Meanings that are found belong to the words in order. -/
theorem exists_of_meanings_cons {page : Page} {word : List Char} {later : List (List Char)}
    {words : List Word} (single : word ≠ twoDashes)
    (means : page.meanings (word :: later) = .ok words) :
    Exists fun meaning => Exists fun rest =>
      page.meaning word = .ok meaning ∧ page.meanings later = .ok rest ∧
        words = ⟨word, meaning⟩ :: rest := by
  simp only [Page.meanings, if_neg single] at means
  split at means
  · cases means
  · rcases exists_of_map_eq_ok means with ⟨rest, found, rfl⟩
    exact ⟨_, rest, by assumption, found, rfl⟩

theorem text_of_meanings {page : Page} {texts : List (List Char)} {words : List Word}
    (means : page.meanings texts = .ok words) : words.map Word.text = texts := by
  induction texts generalizing words with
  | nil =>
      cases means
      rfl
  | cons text later inductionHypothesis =>
      by_cases dashes : text = twoDashes
      · simp only [Page.meanings, if_pos dashes] at means
        cases means
        simp only [List.map_cons, List.map_map, Function.comp_def, List.map_id']
      · rcases exists_of_meanings_cons dashes means with ⟨meaning, rest, _, found, rfl⟩
        rw [List.map_cons, inductionHypothesis found]

/-! ## Words that may stand before a command -/

/-- A word that may stand before the command. -/
def MayOpen (word : List Char) : Prop :=
  word ≠ twoDashes ∧ (Page.main.meaning word).toOption ≠ some .plain

instance (word : List Char) : Decidable (MayOpen word) := by
  unfold MayOpen
  infer_instance

example : MayOpen "-v".toList ∧ MayOpen "--verb".toList ∧ MayOpen "--colour".toList ∧
    ¬ MayOpen "parse".toList := by decide

/-- Words of the main page none of which fills its place. -/
def Opening (words : List Word) : Prop :=
  forall word, word ∈ words -> word.meaning.KeepsPlace .main

theorem opening_of_meanings {front : List (List Char)} {words : List Word}
    (opens : forall word, word ∈ front -> MayOpen word)
    (means : Page.main.meanings front = .ok words) : Opening words := by
  induction front generalizing words with
  | nil =>
      cases means
      intro word member
      cases member
  | cons text later inductionHypothesis =>
      rcases opens text List.mem_cons_self with ⟨single, notPlain⟩
      rcases exists_of_meanings_cons single means with ⟨meaning, rest, meant, found, rfl⟩
      intro word member
      rcases List.mem_cons.mp member with rfl | member
      · apply keepsPlace_of_meaning meant
        rintro rfl
        exact notPlain (by rw [meant]; rfl)
      · exact inductionHypothesis
          (fun word member => opens word (List.mem_cons_of_mem text member)) found word member

theorem meanings_append {page : Page} {front : List (List Char)}
    (single : forall word, word ∈ front -> word ≠ twoDashes) (later : List (List Char)) :
    page.meanings (front ++ later) =
      (page.meanings front).bind fun words =>
        (page.meanings later).map (fun rest => words ++ rest) := by
  induction front with
  | nil =>
      change _ = (page.meanings later).map (fun rest => rest)
      cases found : page.meanings later <;> rw [List.nil_append, found] <;> rfl
  | cons text rest inductionHypothesis =>
      have here := single text List.mem_cons_self
      have tail := inductionHypothesis
        (fun word member => single word (List.mem_cons_of_mem text member))
      simp only [List.cons_append, Page.meanings, if_neg here, tail]
      cases page.meaning text with
      | error ambiguity => rfl
      | ok meaning =>
          cases page.meanings rest <;> cases page.meanings later <;> rfl

/-! ## Reading up to the command -/

theorem maxSteps_of_apply {page : Page} {choices next : Choices} {flag : Flag}
    (applied : choices.apply page flag = .ok next) : next.maxSteps = choices.maxSteps := by
  cases flag <;> cases applied <;> rfl

theorem maxSteps_of_applyAll {page : Page} {choices next : Choices} {flags : List Flag}
    (applied : choices.applyAll page flags = .ok next) : next.maxSteps = choices.maxSteps := by
  induction flags generalizing choices with
  | nil =>
      cases applied
      rfl
  | cons flag later inductionHypothesis =>
      unfold Choices.applyAll at applied
      split at applied
      · cases applied
      · exact (inductionHypothesis applied).trans (maxSteps_of_apply (by assumption))

theorem takesValue_main {flag : Flag} (member : flag ∈ Page.main.flags) :
    flag.takesValue = false := by
  revert flag
  decide

theorem readWords_flags {page : Page} {flag : Flag} (free : flag.takesValue = false)
    (progress : Progress) (text : List Char) (byLetter : Bool) (attached : Option (List Char))
    (rest : List Word) :
    readWords page progress (⟨text, .option flag byLetter attached⟩ :: rest) =
      (attachedFlags page flag byLetter attached).bind fun flags =>
        (progress.choices.applyAll page flags).bind fun choices =>
          readWords page { progress with choices := choices } rest := by
  rw [readWords.eq_def]
  simp only [free, Bool.false_eq_true, if_false]
  cases attachedFlags page flag byLetter attached with
  | error stop => rfl
  | ok flags =>
      dsimp only [Except.bind]
      cases progress.choices.applyAll page flags <;> rfl

/-- What a word does before the command does not depend on the words behind it. -/
theorem exists_effect_of_keepsPlace {word : Word} (keeps : word.meaning.KeepsPlace .main) :
    Exists fun effect : Progress -> Except Stop Progress =>
      (forall progress rest, readWords .main progress (word :: rest) =
        (effect progress).bind fun next => readWords .main next rest) ∧
      forall progress next, effect progress = .ok next ->
        next.place = progress.place ∧ next.choices.maxSteps = progress.choices.maxSteps := by
  rcases word with ⟨text, meaning⟩
  rcases keeps with rfl | ⟨flag, byLetter, attached, member, rfl⟩
  · refine ⟨fun progress => .ok { progress with leftOver := progress.leftOver ++ [text] },
      ?_, ?_⟩
    · intro progress rest
      rw [readWords]
      rfl
    · intro progress next same
      cases same
      exact ⟨rfl, rfl⟩
  · refine ⟨fun progress =>
      (attachedFlags .main flag byLetter attached).bind fun flags =>
        (progress.choices.applyAll .main flags).map fun choices =>
          { progress with choices := choices }, ?_, ?_⟩
    · intro progress rest
      rw [readWords_flags (takesValue_main member)]
      cases attachedFlags .main flag byLetter attached with
      | error stop => rfl
      | ok flags =>
          change (progress.choices.applyAll .main flags).bind _ =
            ((progress.choices.applyAll .main flags).map _).bind _
          cases progress.choices.applyAll .main flags <;> rfl
    · intro progress next reached
      dsimp only at reached
      cases given : attachedFlags .main flag byLetter attached with
      | error stop =>
          rw [given] at reached
          cases reached
      | ok flags =>
          rw [given] at reached
          rcases exists_of_map_eq_ok reached with ⟨choices, applied, rfl⟩
          exact ⟨rfl, maxSteps_of_applyAll applied⟩

theorem readWords_opening {words : List Word} (opens : Opening words) {progress : Progress}
    (unfilled : progress.place = none) (command : List Char) (rest : List Word) :
    readWords .main progress (words ++ ⟨command, .plain⟩ :: rest) =
      (readWords .main progress words).map fun reached =>
        { reached with place := some (command :: rest.map Word.text) } := by
  induction words generalizing progress with
  | nil =>
      rw [List.nil_append, readWords.eq_def]
      simp only [unfilled, Option.isSome_none, Bool.false_eq_true, if_false, if_true]
      rfl
  | cons word later inductionHypothesis =>
      rcases exists_effect_of_keepsPlace (opens word List.mem_cons_self) with
        ⟨effect, reads, keeps⟩
      rw [List.cons_append, reads, reads]
      cases done : effect progress with
      | error stop => rfl
      | ok next =>
          exact inductionHypothesis
            (fun word member => opens word (List.mem_cons_of_mem _ member))
            ((keeps progress next done).1.trans unfilled)

theorem maxSteps_of_opening {words : List Word} (opens : Opening words)
    {progress reached : Progress} (reads : readWords .main progress words = .ok reached) :
    reached.choices.maxSteps = progress.choices.maxSteps := by
  induction words generalizing progress with
  | nil =>
      cases reads
      rfl
  | cons word later inductionHypothesis =>
      rcases exists_effect_of_keepsPlace (opens word List.mem_cons_self) with
        ⟨effect, splits, keeps⟩
      rw [splits] at reads
      cases done : effect progress with
      | error stop =>
          rw [done] at reads
          cases reads
      | ok next =>
          rw [done] at reads
          exact (inductionHypothesis (fun word member =>
            opens word (List.mem_cons_of_mem _ member)) reads).trans (keeps progress next done).2

/-- The words of a page, or the complaint about a word that fits several options. -/
def readMeanings (page : Page) (texts : List (List Char)) : Except Stop (List Word) :=
  (page.meanings texts).mapError fun ambiguity => .refused page (.ambiguous ambiguity)

theorem readMeanings_cons {page : Page} {word : List Char} {meaning : Meaning}
    (single : word ≠ twoDashes) (means : page.meaning word = .ok meaning)
    (later : List (List Char)) :
    readMeanings page (word :: later) =
      (readMeanings page later).map (fun words => ⟨word, meaning⟩ :: words) := by
  rw [readMeanings, readMeanings, meanings_cons single means]
  cases page.meanings later <;> rfl

theorem opening_of_readMeanings {front : List (List Char)} {words : List Word}
    (opens : forall word, word ∈ front -> MayOpen word)
    (reads : readMeanings .main front = .ok words) : Opening words := by
  unfold readMeanings at reads
  cases means : Page.main.meanings front with
  | error ambiguity =>
      rw [means] at reads
      cases reads
  | ok found =>
      rw [means] at reads
      cases reads
      exact opening_of_meanings opens means

/-- What fills the place of a page, which must not be left open. -/
def filled (page : Page) (progress : Progress) : Except Stop (Progress × List (List Char)) :=
  match progress.place with
  | none => .error (.refused page .required)
  | some place => .ok (progress, place)

theorem readPage_eq_bind (page : Page) (choices : Choices) (texts : List (List Char)) :
    readPage page choices texts =
      (readMeanings page texts).bind fun words =>
        (readWords page { choices := choices } words).bind (filled page) := by
  rw [readPage, readMeanings]
  cases page.meanings texts with
  | error ambiguity => rfl
  | ok words =>
      dsimp only [Except.mapError, Except.bind]
      cases readWords page { choices := choices } words <;> rfl

/-- What the page of a command makes of the words behind it, after an opening. -/
def readCommand (page : Page) (opening : Progress) (later : List (List Char)) :
    Except Stop Task :=
  (readPage page opening.choices later).bind fun (progress, file) =>
    match opening.leftOver ++ progress.leftOver with
    | [] => .ok ⟨page, file.headD [], progress.choices⟩
    | leftOver => .error (.refused .main (.unrecognized leftOver))

/-- A command line with a command is read in four stages.  Words that fit several options of
the main page come first, wherever they stand, and what the page of the command complains
about comes last. -/
theorem readArguments_opening {front : List (List Char)}
    (opens : forall word, word ∈ front -> MayOpen word) {command : List Char} {page : Page}
    (known : Page.ofCommand? command = some page)
    (plain : Page.main.meaning command = .ok .plain) (later : List (List Char)) :
    readArguments (front ++ command :: later) =
      (readMeanings .main front).bind fun words =>
        (readMeanings .main later).bind fun _ =>
          (readWords .main { choices := {} } words).bind fun opening =>
            readCommand page opening later := by
  have single : command ≠ twoDashes := by
    rintro rfl
    cases known
  rw [readArguments, readPage_eq_bind, readMeanings, readMeanings, readMeanings,
    meanings_append fun word member => (opens word member).1, meanings_cons single plain]
  cases front : Page.main.meanings front with
  | error ambiguity => rfl
  | ok words =>
      cases behind : Page.main.meanings later with
      | error ambiguity => rfl
      | ok rest =>
          dsimp only [Except.mapError, Except.bind, Except.map]
          rw [readWords_opening (opening_of_meanings opens front) rfl, text_of_meanings behind]
          cases readWords .main { choices := {} } words with
          | error stop => rfl
          | ok opening =>
              dsimp only [Except.map, filled]
              rw [known, readCommand]
              dsimp only
              cases readPage page opening.choices later <;> rfl

theorem page_of_readCommand {page : Page} {opening : Progress} {later : List (List Char)}
    {task : Task} (reads : readCommand page opening later = .ok task) : task.page = page := by
  rcases exists_of_bind_eq_ok reads with ⟨⟨progress, file⟩, _, settled⟩
  dsimp only at settled
  split at settled
  · cases settled
    rfl
  · cases settled

/-- A task that a command line asks for is a task of the page of its command. -/
theorem page_of_readArguments {front : List (List Char)}
    (opens : forall word, word ∈ front -> MayOpen word) {command : List Char} {page : Page}
    (known : Page.ofCommand? command = some page)
    (plain : Page.main.meaning command = .ok .plain) {later : List (List Char)} {task : Task}
    (reads : readArguments (front ++ command :: later) = .ok task) : task.page = page := by
  rw [readArguments_opening opens known plain] at reads
  rcases exists_of_bind_eq_ok reads with ⟨words, _, reads⟩
  rcases exists_of_bind_eq_ok reads with ⟨rest, _, reads⟩
  rcases exists_of_bind_eq_ok reads with ⟨opening, _, reads⟩
  exact page_of_readCommand reads

end CommandLine
end LoopTape
