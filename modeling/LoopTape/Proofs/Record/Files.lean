import LoopTape.Proofs.Encoding.CodeBytes
import LoopTape.Proofs.Machine.Comments
import LoopTape.Record.File

namespace LoopTape
namespace Record

open LoopTape.Encoding LoopTape.Machine

/-!
# Files are run as their instructions

The record of a run does not say where anything stands.  It holds neither the
counter nor the position of a bracket without a partner, and the messages of the
faults are the same at every position.  Two texts with the same instructions
therefore have the same records.

The instructions of a file are those of its bytes that are instructions by
themselves, in whatever code it is read.  The code, the mark in front and the line
ends only decide which comments are between them.
-/

variable {directory : Files.Directory} {path : List Char} {bytes : List UInt8}
  {codec : Codec} {text : List Char}

/-! ## Records of runs -/

theorem exists_evaluate_iff (machine : Machine) (record : Evaluation) :
    (Exists fun patience => evaluate machine patience = some record) ↔
      Exists fun finish => machine.Ends .fresh finish ∧
        Evaluation.ofFinish machine.source finish = record := by
  unfold evaluate
  constructor
  · rintro ⟨patience, summed⟩
    rcases Option.map_eq_some_iff.mp summed with ⟨finish, finished, same⟩
    exact ⟨finish, (exists_execute_iff_ends _ _).mp ⟨patience, finished⟩, same⟩
  · rintro ⟨finish, ends, same⟩
    rcases (exists_execute_iff_ends _ _).mpr ends with ⟨patience, finished⟩
    exact ⟨patience, Option.map_eq_some_iff.mpr ⟨finish, finished, same⟩⟩

/-- A record of a fault does not show its position. -/
theorem ofFinish_relocate (source target : List Char) (place : Nat -> Nat) (finish : Finish) :
    Evaluation.ofFinish target ((View.relocate place).finish finish) =
      Evaluation.ofFinish source finish := by
  rcases finish with ⟨state, _ | fault⟩
  · rfl
  · cases fault <;> rfl

theorem exists_evaluate_codeOnly_iff (source : List Char) (limit : Option Nat)
    (record : Evaluation) :
    (Exists fun patience =>
        evaluate ⟨Instruction.codeOnly source, limit⟩ patience = some record) ↔
      Exists fun patience => evaluate ⟨source, limit⟩ patience = some record := by
  have alike := ends_codeOnly_iff source limit .fresh
  rw [relocate_fresh] at alike
  rw [exists_evaluate_iff, exists_evaluate_iff]
  constructor
  · rintro ⟨finish, ends, same⟩
    rcases (alike finish).mp ends with ⟨whole, wholeEnds, relocated⟩
    rw [relocated, ofFinish_relocate source] at same
    exact ⟨whole, wholeEnds, same⟩
  · rintro ⟨whole, ends, same⟩
    refine ⟨_, (alike _).mpr ⟨whole, ends, rfl⟩, ?_⟩
    rw [ofFinish_relocate source]
    exact same

/-- Runs without a record are those that never end. -/
theorem forall_evaluate_eq_none_iff (machine : Machine) :
    (forall patience, evaluate machine patience = none) ↔
      forall record, ¬ Exists fun patience => evaluate machine patience = some record := by
  constructor
  · rintro never record ⟨patience, summed⟩
    rw [never patience] at summed
    cases summed
  · intro never patience
    exact Option.eq_none_iff_forall_ne_some.mpr (fun record summed => never record ⟨patience, summed⟩)

/-! ## Records of files -/

theorem evaluateWithin_of_limit (source : List Char) (limit : Option Nat) (patience : Nat) :
    evaluateWithin source (limit.map Int.ofNat) patience =
      .ok (evaluate ⟨source, limit⟩ patience) := by
  cases limit with
  | none => rfl
  | some budget => rfl

theorem evaluateFile_of_readText (stored : directory.fileBytes (Files.normalize path) = .ok bytes)
    (reads : readText codec bytes = .ok text) (limit : Option Nat) (patience : Nat) :
    evaluateFile directory path codec.name (limit.map Int.ofNat) patience =
      .ok (evaluate ⟨text, limit⟩ patience) := by
  have named : directory.readText path codec.name = .ok text := by
    unfold Files.Directory.readText Files.decodeAs
    simp only [stored, Codec.ofName?_name, reads]
    rfl
  simp only [evaluateFile, named, evaluateWithin_of_limit]
  rfl

theorem exists_evaluate_iff_of_readText (reads : readText codec bytes = .ok text)
    (limit : Option Nat) (record : Evaluation) :
    (Exists fun patience => evaluate ⟨text, limit⟩ patience = some record) ↔
      Exists fun patience => evaluate ⟨codeText bytes, limit⟩ patience = some record := by
  rw [← exists_evaluate_codeOnly_iff, codeOnly_readText reads]

/-- Whatever code a file is read in, if its bytes can be read at all, its record is
that of the text of those bytes that are instructions by themselves.  It is in
particular the same in all the codes in which the bytes can be read. -/
theorem file_runs_as_code_bytes
    (stored : directory.fileBytes (Files.normalize path) = .ok bytes)
    (reads : readText codec bytes = .ok text) (limit : Option Nat) :
    (forall record,
      (Exists fun patience => evaluateFile directory path codec.name (limit.map Int.ofNat)
          patience = .ok (some record)) ↔
        Exists fun patience => evaluateWithin (codeText bytes) (limit.map Int.ofNat)
          patience = .ok (some record)) ∧
    ((forall patience, evaluateFile directory path codec.name (limit.map Int.ofNat)
          patience = .ok none) ↔
        forall patience, evaluateWithin (codeText bytes) (limit.map Int.ofNat)
          patience = .ok none) ∧
    (forall patience fault, evaluateFile directory path codec.name (limit.map Int.ofNat)
      patience ≠ .error fault) ∧
    forall other otherText, readText other bytes = .ok otherText ->
      forall record,
        (Exists fun patience => evaluateFile directory path codec.name (limit.map Int.ofNat)
            patience = .ok (some record)) ↔
          Exists fun patience => evaluateFile directory path other.name (limit.map Int.ofNat)
            patience = .ok (some record) := by
  simp only [evaluateFile_of_readText stored reads, evaluateWithin_of_limit, Except.ok.injEq]
  refine ⟨exists_evaluate_iff_of_readText reads limit, ?_, ?_, ?_⟩
  · simp only [forall_evaluate_eq_none_iff, exists_evaluate_iff_of_readText reads]
  · intro patience fault impossible
    cases impossible
  · intro other otherText otherReads record
    simp only [evaluateFile_of_readText stored otherReads, Except.ok.injEq]
    rw [exists_evaluate_iff_of_readText reads, exists_evaluate_iff_of_readText otherReads]

/-- A mark, an instruction, a comment of two bytes, a line end of two bytes, and
another instruction. -/
def markedProgram : List UInt8 := [0xef, 0xbb, 0xbf, 0x2b, 0xc3, 0xab, 0x0d, 0x0a, 0x2e]

theorem markedProgram_runs_in_two_codes :
    (Exists fun patience =>
      evaluateFile [([['p']], .file markedProgram)] ['p'] Codec.utf8Signed.name (some 2) patience =
        .ok (some ⟨some 0, some Tape.blank.increment.cells, ['\x01'], [], 2⟩)) ∧
    Exists fun patience =>
      evaluateFile [([['p']], .file markedProgram)] ['p'] Codec.latin1.name (some 2) patience =
        .ok (some ⟨some 0, some Tape.blank.increment.cells, ['\x01'], [], 2⟩) := by
  have stored : Files.Directory.fileBytes [([['p']], .file markedProgram)]
      (Files.normalize ['p']) = .ok markedProgram := rfl
  have signed : readText .utf8Signed markedProgram = .ok ['+', 'ë', '\n', '.'] := rfl
  have single : readText .latin1 markedProgram =
      .ok (unifyNewlines (decodeLatin1 markedProgram)) := rfl
  have code : codeText markedProgram = ['+', '.'] := by decide
  have finished : (Machine.mk ['+', '.'] (some 2)).execute 0 =
      some ⟨⟨Tape.blank.increment, 2, #[Tape.blank.increment.cell], 2⟩, none⟩ := rfl
  have ran : evaluateWithin (codeText markedProgram) (some 2) 0 =
      .ok (some ⟨some 0, some Tape.blank.increment.cells, ['\x01'], [], 2⟩) := by
    rw [code]
    change Except.ok (((Machine.mk ['+', '.'] (some 2)).execute 0).map _) = _
    rw [finished, blank_increment_cell]
    rfl
  rcases file_runs_as_code_bytes stored signed (some 2) with ⟨asCode, _, _, alike⟩
  have inSigned := (asCode _).mpr ⟨0, ran⟩
  exact ⟨inSigned, (alike .latin1 _ single _).mp inSigned⟩

end Record
end LoopTape
