import LoopTape.Encoding.Codec
import LoopTape.Instruction

namespace LoopTape
namespace Encoding

/-!
# The instructions among bytes

The characters of the instructions are below 128, and in all four codes such a
character is the byte with its number and nothing else.  A longer sequence is made
of bytes from 128 up, and so is the number that it denotes.  No sequence therefore
yields an instruction, and none swallows one.

While a sequence is read, two things are known about it.  The bytes that it still
awaits are from 128 up, and the number that it will denote can no longer be below
128, whatever these bytes are.  The leading bytes that would allow a smaller
number are refused.

The mark in front of a file and the line ends are comments, before they are
removed or unified and afterwards.
-/

/-- Whether a byte by itself is an instruction. -/
def isCodeByte (byte : UInt8) : Bool := Instruction.isCode (Char.ofNat byte.toNat)

/-- The text of those bytes that are instructions, in their order. -/
def codeText (bytes : List UInt8) : List Char :=
  (bytes.filter isCodeByte).map (fun byte => Char.ofNat byte.toNat)

variable {bytes : List UInt8} {text : List Char}

/-! ## Characters from 128 up -/

theorem toNat_of_isCode {character : Char} (code : Instruction.isCode character = true) :
    0 < character.toNat ∧ character.toNat < 128 := by
  rcases Option.isSome_iff_exists.mp code with ⟨instruction, reads⟩
  rw [(Instruction.ofChar?_eq_some_iff character instruction).mp reads]
  cases instruction <;> decide

theorem not_isCode_ofNat {number : Nat} (large : 128 ≤ number) :
    Instruction.isCode (Char.ofNat number) = false := by
  rw [Bool.eq_false_iff]
  intro code
  have small := toNat_of_isCode code
  unfold Char.ofNat at small
  by_cases valid : number.isValidChar
  · rw [dif_pos valid] at small
    have kept : (Char.ofNatAux number valid).toNat = number := rfl
    rw [kept] at small
    exact absurd small.2 (Nat.not_lt_of_le large)
  · -- A number of no character is read as the character with the number zero.
    rw [dif_neg valid] at small
    exact absurd small.1 (Nat.lt_irrefl 0)

theorem codeOnly_ofNat_of_large {number : Nat} (large : 128 ≤ number) :
    Instruction.codeOnly [Char.ofNat number] = [] :=
  Instruction.codeOnly_cons_of_comment (not_isCode_ofNat large) []

theorem not_isCodeByte {byte : UInt8} (large : 0x80 ≤ byte) : isCodeByte byte = false :=
  not_isCode_ofNat (UInt8.le_iff_toNat_le.mp large)

/-! ## Codes with one byte to a character -/

theorem codeOnly_decodeLatin1 (bytes : List UInt8) :
    Instruction.codeOnly (decodeLatin1 bytes) = codeText bytes := by
  unfold Instruction.codeOnly decodeLatin1
  rw [List.filter_map]
  rfl

theorem codeText_append (front back : List UInt8) :
    codeText (front ++ back) = codeText front ++ codeText back := by
  unfold codeText
  rw [List.filter_append, List.map_append]

theorem codeText_cons (byte : UInt8) (rest : List UInt8) :
    codeText (byte :: rest) =
      Instruction.codeOnly [Char.ofNat byte.toNat] ++ codeText rest := by
  rw [← codeOnly_decodeLatin1, ← codeOnly_decodeLatin1]
  exact Instruction.codeOnly_append [Char.ofNat byte.toNat] (decodeLatin1 rest)

theorem codeText_cons_of_large {byte : UInt8} (large : 0x80 ≤ byte) (rest : List UInt8) :
    codeText (byte :: rest) = codeText rest := by
  unfold codeText
  rw [List.filter_cons_of_neg (Bool.eq_false_iff.mp (not_isCodeByte large))]

theorem codeText_of_large (large : forall byte, byte ∈ bytes -> 0x80 ≤ byte) :
    codeText bytes = [] := by
  unfold codeText
  rw [List.filter_eq_nil_iff.mpr]
  · rfl
  · intro byte member
    exact Bool.eq_false_iff.mp (not_isCodeByte (large byte member))

/-- What the code of seven bits does not refuse are the characters with the
numbers of the bytes. -/
theorem decodeAsciiFrom_eq_ok {decoded : List Char} {position : Nat}
    (decodes : decodeAsciiFrom decoded position bytes = .ok text) :
    text = decoded.reverse ++ decodeLatin1 bytes := by
  induction bytes generalizing decoded position with
  | nil =>
      cases decodes
      exact (List.append_nil _).symm
  | cons byte rest inductionHypothesis =>
      unfold decodeAsciiFrom at decodes
      split at decodes
      · rw [inductionHypothesis decodes, List.reverse_cons, List.append_assoc]
        rfl
      · cases decodes

/-! ## Sequences of bytes -/

/-- What is known of a sequence from its leading byte on.  Its other bytes are from
128 up.  The smallest byte that may come next leads to a number that is above 1,
and six more bits make it at least 128.  If no more bits follow, it is there
already. -/
structure Lead.Large (lead : Lead) : Prop where
  next : 0x80 ≤ lead.next.low
  later : forall range, range ∈ lead.later -> 0x80 ≤ range.low
  number : 2 ≤ extend lead.bits lead.next.low
  last : lead.later = [] -> 128 ≤ extend lead.bits lead.next.low

/-- A sequence that is being read, if there is one, is as its leading byte has
announced.  What has been read of it counts as the share of the leading byte. -/
def PendingLarge : Option Pending -> Prop
  | none => True
  | some sequence => Lead.Large ⟨sequence.bits, sequence.next, sequence.later⟩

theorem extend_continuation (bits : Nat) : extend bits continuation.low = bits * 64 := rfl

theorem extend_le_extend (bits : Nat) {low byte : UInt8} (least : low ≤ byte) :
    extend bits low ≤ extend bits byte :=
  Nat.add_le_add_left (Nat.sub_le_sub_right (UInt8.le_iff_toNat_le.mp least) 0x80) _

theorem toNat_lt_of_not_le {start byte : UInt8} (notBelow : ¬ byte < start)
    (different : ¬ byte = start) : start.toNat < byte.toNat := by
  have atLeast := UInt8.le_iff_toNat_le.mp (UInt8.not_lt.mp notBelow)
  exact Nat.lt_of_le_of_ne atLeast (fun same => different (UInt8.toNat_inj.mp same.symm))

/-- A sequence of more than two bytes, whose last ones are not narrowed. -/
theorem large_of_more {bits : Nat} {next : ByteRange} (count : Nat) (low : 0x80 ≤ next.low)
    (number : 2 ≤ extend bits next.low) :
    Lead.Large ⟨bits, next, List.replicate (count + 1) continuation⟩ := by
  refine ⟨low, ?_, number, ?_⟩
  · intro range member
    rw [List.eq_of_mem_replicate member]
    decide
  · intro impossible
    cases impossible

/-- A leading byte does not announce a number below 128. -/
theorem large_of_lead? {byte : UInt8} {lead : Lead} (found : lead? byte = some lead) :
    lead.Large := by
  have low : 0x80 ≤ continuation.low := by decide
  unfold lead? at found
  split at found
  · cases found
  rename_i two
  split at found
  · rw [← Option.some.inj found]
    have start : 0xc2 ≤ byte.toNat := UInt8.le_iff_toNat_le.mp (UInt8.not_lt.mp two)
    have number : 128 ≤ extend (byte.toNat - 0xc0) continuation.low := by
      rw [extend_continuation]
      omega
    refine ⟨low, ?_, Nat.le_trans (by decide) number, fun _ => number⟩
    intro range member
    cases member
  rename_i notBelow
  split at found
  · rw [← Option.some.inj found]
    exact large_of_more 0 (by decide) (by decide)
  rename_i three
  split at found
  · rw [← Option.some.inj found]
    exact large_of_more 0 (by decide) (by decide)
  split at found
  · rw [← Option.some.inj found]
    have start : 0xe0 < byte.toNat := toNat_lt_of_not_le notBelow three
    have number : 2 ≤ extend (byte.toNat - 0xe0) continuation.low := by
      rw [extend_continuation]
      omega
    exact large_of_more 0 low number
  rename_i notBelow
  split at found
  · rw [← Option.some.inj found]
    exact large_of_more 1 (by decide) (by decide)
  rename_i four
  split at found
  · rw [← Option.some.inj found]
    have start : 0xf0 < byte.toNat := toNat_lt_of_not_le notBelow four
    have number : 2 ≤ extend (byte.toNat - 0xf0) continuation.low := by
      rw [extend_continuation]
      omega
    exact large_of_more 1 low number
  split at found
  · rw [← Option.some.inj found]
    exact large_of_more 1 (by decide) (by decide)
  · cases found

theorem ByteRange.low_le_of_contains {range : ByteRange} {byte : UInt8}
    (contains : range.contains byte = true) : range.low ≤ byte := by
  unfold ByteRange.contains at contains
  rw [Bool.and_eq_true, decide_eq_true_iff] at contains
  exact contains.1

theorem Lead.Large.onward {bits : Nat} {next following : ByteRange} {later : List ByteRange}
    (large : Lead.Large ⟨bits, next, following :: later⟩) {byte : UInt8}
    (continues : next.contains byte = true) :
    Lead.Large ⟨extend bits byte, following, later⟩ := by
  have grows : 2 ≤ extend bits byte :=
    Nat.le_trans large.number (extend_le_extend bits (ByteRange.low_le_of_contains continues))
  have number : 128 ≤ extend (extend bits byte) following.low :=
    Nat.le_trans (Nat.mul_le_mul_right 64 grows) (Nat.le_add_right _ _)
  refine ⟨large.later following List.mem_cons_self, ?_, Nat.le_trans (by decide) number,
    fun _ => number⟩
  intro range member
  exact large.later range (List.mem_cons_of_mem following member)

theorem codeOnly_reverse_cons (character : Char) (decoded : List Char) :
    Instruction.codeOnly (character :: decoded).reverse =
      Instruction.codeOnly decoded.reverse ++ Instruction.codeOnly [character] := by
  rw [List.reverse_cons, Instruction.codeOnly_append]

/-- Whatever has been read of a sequence, the instructions that follow are those
of the bytes that follow. -/
theorem codeOnly_decodeUtf8From {decoded : List Char} {position : Nat} {pending : Option Pending}
    (large : PendingLarge pending)
    (decodes : decodeUtf8From decoded position pending bytes = .ok text) :
    Instruction.codeOnly text = Instruction.codeOnly decoded.reverse ++ codeText bytes := by
  induction bytes generalizing decoded position pending with
  | nil =>
      cases pending with
      | none =>
          cases decodes
          exact (List.append_nil _).symm
      | some sequence => cases decodes
  | cons byte rest inductionHypothesis =>
      have closed : PendingLarge none := trivial
      unfold decodeUtf8From at decodes
      cases pending with
      | none =>
          dsimp only at decodes
          split at decodes
          · rw [inductionHypothesis closed decodes, codeOnly_reverse_cons, codeText_cons,
              List.append_assoc]
          · rename_i above
            rw [codeText_cons_of_large (UInt8.not_lt.mp above)]
            split at decodes
            · cases decodes
            · rename_i lead found
              have opened : PendingLarge
                  (some ⟨byte, position, lead.bits, lead.next, lead.later⟩) := large_of_lead? found
              exact inductionHypothesis opened decodes
      | some sequence =>
          dsimp only at decodes
          split at decodes
          · rename_i continues
            have least := ByteRange.low_le_of_contains continues
            rw [codeText_cons_of_large (UInt8.le_trans large.next least)]
            rcases sequence with ⟨first, start, bits, next, _ | ⟨following, later⟩⟩
            · have number : 128 ≤ extend bits byte :=
                Nat.le_trans (large.last rfl) (extend_le_extend bits least)
              rw [inductionHypothesis closed decodes, codeOnly_reverse_cons,
                codeOnly_ofNat_of_large number, List.append_nil]
            · have onward : PendingLarge
                  (some ⟨first, start, extend bits byte, following, later⟩) :=
                large.onward continues
              exact inductionHypothesis onward decodes
          · cases decodes

theorem codeOnly_decodeUtf8 (decodes : decodeUtf8 bytes = .ok text) :
    Instruction.codeOnly text = codeText bytes := by
  have closed : PendingLarge none := trivial
  exact codeOnly_decodeUtf8From closed decodes

theorem byteOrderMark_large : forall byte, byte ∈ byteOrderMark -> 0x80 ≤ byte := by
  intro byte member
  rw [byteOrderMark, List.mem_cons, List.mem_cons, List.mem_singleton] at member
  rcases member with rfl | rfl | rfl <;> decide

/-- The mark is a comment when it is kept, and so is the beginning of one. -/
theorem codeOnly_decodeUtf8Signed (decodes : decodeUtf8Signed bytes = .ok text) :
    Instruction.codeOnly text = codeText bytes := by
  unfold decodeUtf8Signed at decodes
  split at decodes
  · rename_i marked
    rcases List.isPrefixOf_iff_prefix.mp marked with ⟨rest, same⟩
    rw [← same, List.drop_left] at decodes
    rw [← same, codeText_append, codeText_of_large byteOrderMark_large]
    exact codeOnly_decodeUtf8 decodes
  · split at decodes
    · rename_i beginning
      have part := List.isPrefixOf_iff_prefix.mp beginning
      cases decodes
      rw [codeText_of_large (fun byte member => byteOrderMark_large byte (part.subset member))]
      rfl
    · exact codeOnly_decodeUtf8 decodes

/-! ## Line ends -/

theorem codeOnly_unifyNewlines (text : List Char) :
    Instruction.codeOnly (unifyNewlines text) = Instruction.codeOnly text := by
  have returns : Instruction.isCode '\r' = false := rfl
  have feeds : Instruction.isCode '\n' = false := rfl
  induction text using unifyNewlines.induct with
  | case1 => rfl
  | case2 rest inductionHypothesis =>
      rw [unifyNewlines, Instruction.codeOnly_cons_of_comment feeds, inductionHypothesis,
        Instruction.codeOnly_cons_of_comment returns, Instruction.codeOnly_cons_of_comment feeds]
  | case3 rest single inductionHypothesis =>
      rw [unifyNewlines, Instruction.codeOnly_cons_of_comment feeds, inductionHypothesis,
        Instruction.codeOnly_cons_of_comment returns]
      exact single
  | case4 character rest notPair notReturn inductionHypothesis =>
      rw [unifyNewlines]
      · cases code : Instruction.isCode character with
        | true =>
            rw [Instruction.codeOnly_cons_of_code code, Instruction.codeOnly_cons_of_code code,
              inductionHypothesis]
        | false =>
            rw [Instruction.codeOnly_cons_of_comment code,
              Instruction.codeOnly_cons_of_comment code, inductionHypothesis]
      · exact notPair
      · exact notReturn

/-! ## All codes -/

theorem codeOnly_decode {codec : Codec} (decodes : decode codec bytes = .ok text) :
    Instruction.codeOnly text = codeText bytes := by
  cases codec with
  | utf8 => exact codeOnly_decodeUtf8 decodes
  | utf8Signed => exact codeOnly_decodeUtf8Signed decodes
  | ascii =>
      rw [decodeAsciiFrom_eq_ok decodes]
      exact codeOnly_decodeLatin1 bytes
  | latin1 =>
      rw [← Except.ok.inj decodes]
      exact codeOnly_decodeLatin1 bytes

/-- In whatever code bytes are read, the instructions of the text are those bytes
that are instructions by themselves. -/
theorem codeOnly_readText {codec : Codec} (reads : readText codec bytes = .ok text) :
    Instruction.codeOnly text = codeText bytes := by
  unfold readText at reads
  cases decodes : decode codec bytes with
  | error fault =>
      rw [decodes] at reads
      cases reads
  | ok decoded =>
      rw [decodes] at reads
      rw [← Except.ok.inj reads, codeOnly_unifyNewlines, codeOnly_decode decodes]

end Encoding
end LoopTape
