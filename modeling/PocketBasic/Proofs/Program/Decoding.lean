/-
**Stored tokens decode to themselves.** A token that a typed line can hold, or the number of a line,
is encoded as bytes that say where they end, so a text that holds them decodes to the token.

* `ProgramText.Holds`: a text has given bytes at an offset;
* `Token.IsStorable`: the tokens that survive being stored;
* `ProgramText.readsAs_of_encode`, `ProgramText.decode_of_holds`: reading back what was encoded.
-/

import Mathlib.Algebra.Group.Nat.Defs
import Mathlib.Data.List.Basic
import Mathlib.Tactic.Common
import PocketBasic.Program.Encoding
import PocketBasic.Proofs.Program.Walking

namespace PocketBasic

/-! ### Little endian -/

@[simp]
theorem length_littleEndian (count value : Nat) : (littleEndian count value).length = count := by
  induction count generalizing value with
  | zero => rfl
  | succ count ih => rw [littleEndian, List.length_cons, ih]

/-- The lowest bytes of a number are the number cut off at the top. -/
theorem fromLittleEndian_littleEndian (count value : Nat) :
    fromLittleEndian (littleEndian count value) = value % 256 ^ count := by
  induction count generalizing value with
  | zero => simp [littleEndian, fromLittleEndian, Nat.mod_one]
  | succ count ih =>
    have byte : (value % 256).toUInt8.toNat = value % 256 := by simp
    rw [littleEndian, fromLittleEndian, ih, byte, Nat.pow_succ']
    exact (Nat.mod_mul).symm

theorem AddressWidth.largest_lt (width : AddressWidth) :
    width.largest < 256 ^ width.byteCount := by
  cases width <;> decide

theorem AddressWidth.largest_add_one (width : AddressWidth) :
    width.largest + 1 = 256 ^ width.byteCount := by
  cases width <;> decide

theorem AddressWidth.lineNumber_le (width : AddressWidth) (line : LineNumber) :
    line.toNat ≤ width.largest := by
  have := line.toNat_lt
  cases width <;> simp only [largest] <;> omega

/-- An address that fits is read back. -/
theorem AddressWidth.fromLittleEndian_encode (width : AddressWidth) {address : Nat}
    (fits : address ≤ width.largest) : fromLittleEndian (width.encode address) = address := by
  rw [encode, fromLittleEndian_littleEndian]
  exact Nat.mod_eq_of_lt (Nat.lt_of_le_of_lt fits width.largest_lt)

@[simp]
theorem AddressWidth.length_encode (width : AddressWidth) (address : Nat) :
    (width.encode address).length = width.byteCount := length_littleEndian _ _

/-- A number is its four bytes. -/
theorem Single.ofBytes_toBytes (x : Single) {b0 b1 b2 b3 : UInt8}
    (bytes : x.toBytes = [b0, b1, b2, b3]) : Single.ofBytes b0 b1 b2 b3 = x := by
  obtain ⟨bits⟩ := x
  simp only [toBytes, List.cons.injEq, and_true] at bytes
  obtain ⟨rfl, rfl, rfl, rfl⟩ := bytes
  have small := bits.toNat_lt
  have total : bits.toNat % 256 + bits.toNat / 0x100 % 256 * 0x100 +
      bits.toNat / 0x10000 % 256 * 0x10000 + bits.toNat / 0x1000000 % 256 * 0x1000000 =
      bits.toNat := by omega
  simp only [ofBytes, Nat.toUInt8, UInt8.toNat_ofNat', Nat.reducePow, total, UInt32.ofNat_toNat]

namespace ProgramText

/-! ### What a text holds -/

/-- The text has these bytes at an offset. -/
def Holds (text : ProgramText) (offset : Nat) (bytes : Bytes) : Prop :=
  offset + bytes.length ≤ text.length ∧
    ∀ place (inside : place < bytes.length), text.byteAt (offset + place) = bytes[place]

namespace Holds

variable {text : ProgramText} {offset : Nat} {first second : Bytes}

theorem left (held : text.Holds offset (first ++ second)) : text.Holds offset first := by
  refine ⟨?_, fun place inside => ?_⟩
  · have := held.1
    rw [List.length_append] at this
    omega
  · rw [held.2 place (by rw [List.length_append]; omega), List.getElem_append_left inside]

theorem right (held : text.Holds offset (first ++ second)) :
    text.Holds (offset + first.length) second := by
  refine ⟨?_, fun place inside => ?_⟩
  · have := held.1
    rw [List.length_append] at this
    omega
  · have found := held.2 (first.length + place) (by rw [List.length_append]; omega)
    rw [List.getElem_append_right (by omega)] at found
    simpa [Nat.add_assoc] using found

theorem head {byte : UInt8} (held : text.Holds offset (byte :: second)) :
    text.byteAt offset = byte := by
  exact held.2 0 (Nat.zero_lt_succ _)

theorem tail {byte : UInt8} (held : text.Holds offset (byte :: second)) :
    text.Holds (offset + 1) second := @right _ _ [byte] _ held

/-- The bytes of a range that the text holds. -/
theorem slice_eq (held : text.Holds offset first) : text.slice offset first.length = first := by
  refine List.ext_getElem (by simp [slice]) fun place _ inside => ?_
  simpa [slice] using held.2 place inside

end Holds

/-- A text made of bytes holds each piece of them. -/
theorem holds_ofBytes (before bytes after : Bytes) :
    (ofBytes (before ++ bytes ++ after)).Holds before.length bytes := by
  refine ⟨by simp [ofBytes], fun place inside => ?_⟩
  have behind : ¬ before.length + place < before.length := by omega
  simp [ofBytes, List.getD_eq_getElem?_getD, List.getElem?_append, inside, behind]

end ProgramText

/-! ### Storable tokens -/

namespace Token

/-- Whether a token is the same after it was stored: every token of a typed line is. -/
def IsStorable : Token → Prop
  | endOfText | lineNumber _ => False
  | symbol byte => ofByte byte = symbol byte
  | _ => True

instance decidableIsStorable : DecidablePred IsStorable
  | endOfText | lineNumber _ => isFalse id
  | symbol byte => inferInstanceAs (Decidable (ofByte byte = symbol byte))
  | number _ | literal _ | scalar _ | string _ | array _ | word _ | operator _ => isTrue trivial

/-- Whether a token is a storable one or the number of a line. -/
def IsEncodable (token : Token) : Prop := token.IsStorable ∨ ∃ line, token = lineNumber line

theorem word_mem_vocabulary (keyword : Keyword) : word keyword ∈ vocabulary := by
  cases keyword <;> decide

theorem code?_lt {token : Token} {code : Nat} (coded : token.code? = some code) :
    code < vocabulary.length := (List.idxOf?_eq_some_iff.mp coded).1

/-- A code is the place of its token in the vocabulary. -/
theorem vocabulary_code? {token : Token} {code : Nat} (coded : token.code? = some code) :
    vocabulary[code]? = some token := by
  obtain ⟨inside, found, _⟩ := List.idxOf?_eq_some_iff.mp coded
  rw [List.getElem?_eq_getElem inside]
  simpa using found

theorem length_shortVocabulary : shortVocabulary.length = 74 := rfl

end Token

/-! ### Reading back -/

namespace Tag

/-- The tags with something after them. -/
def withPayload : List UInt8 := [number, lineNumber, literal, scalar, string, array, escape]

/-- The tags with a payload lie between the characters and the words, or above all words. -/
theorem bounds_of_withPayload :
    ∀ tag ∈ withPayload, 128 ≤ tag.toNat ∧ (tag.toNat < 134 ∨ 207 < tag.toNat) := by
  decide +kernel

end Tag

namespace ProgramText

variable {text : ProgramText} {width : AddressWidth} {offset : Nat} {bytes : Bytes}

/-- What a text that holds the bytes of `token` has at an offset: a token of that length, which is
the same one. -/
def ReadsAs (text : ProgramText) (width : AddressWidth) (offset : Nat) (token : Token)
    (length : Nat) : Prop :=
  text.extent width offset = length ∧ text.tokenBetween width offset (offset + length) = token

theorem readsAs_number {value : Single} (held : text.Holds offset (Tag.number :: value.toBytes)) :
    text.ReadsAs width offset (.number value) 5 := by
  have tag := held.head
  have first := held.tail.head
  have second := held.tail.tail.head
  have third := held.tail.tail.tail.head
  have fourth := held.tail.tail.tail.tail.head
  refine ⟨by simp [extent, tag, numberSize], ?_⟩
  simp only [tokenBetween, tag, if_true, numberAt, first, second, third, fourth]
  rw [Single.ofBytes_toBytes value rfl]

theorem readsAs_lineNumber {line : LineNumber}
    (held : text.Holds offset (Tag.lineNumber :: width.encode line.toNat)) :
    text.ReadsAs width offset (.lineNumber line) (1 + width.byteCount) := by
  have tag := held.head
  have address : text.addressAt width (offset + 1) = line.toNat := by
    have slice := held.tail.slice_eq
    rw [AddressWidth.length_encode] at slice
    rw [addressAt, slice, width.fromLittleEndian_encode (width.lineNumber_le line)]
  refine ⟨by simp [extent, tag, Tag.number, Tag.lineNumber], ?_⟩
  simp [tokenBetween, tag, address, Tag.number, Tag.lineNumber]

theorem readsAs_literal {literal : Bytes} (short : literal.length ≤ 255)
    (held : text.Holds offset (Tag.literal :: literal.length.toUInt8 :: literal)) :
    text.ReadsAs width offset (.literal literal) (2 + literal.length) := by
  have tag := held.head
  have size : (text.byteAt (offset + 1)).toNat = literal.length := by
    rw [held.tail.head, Nat.toUInt8, UInt8.toNat_ofNat']
    omega
  have slice := held.tail.tail.slice_eq
  refine ⟨by simp [extent, tag, size, Tag.number, Tag.lineNumber, Tag.literal], ?_⟩
  have count : offset + (2 + literal.length) - (offset + 2) = literal.length := by omega
  simp [tokenBetween, tag, count, Tag.number, Tag.lineNumber, Tag.literal, slice]

theorem readsAs_scalar {name : Name} (held : text.Holds offset (Tag.scalar :: name.bytes)) :
    text.ReadsAs width offset (.scalar name) 3 := by
  have tag := held.head
  have first := held.tail.head
  have second := held.tail.tail.head
  constructor <;>
    simp [extent, tokenBetween, nameAt, tag, first, second, Tag.number, Tag.lineNumber,
      Tag.literal, Tag.scalar]

theorem readsAs_string {name : Name} (held : text.Holds offset (Tag.string :: name.bytes)) :
    text.ReadsAs width offset (.string name) 3 := by
  have tag := held.head
  have first := held.tail.head
  have second := held.tail.tail.head
  constructor <;>
    simp [extent, tokenBetween, nameAt, tag, first, second, Tag.number, Tag.lineNumber,
      Tag.literal, Tag.scalar, Tag.string]

theorem readsAs_array {name : Name} (held : text.Holds offset (Tag.array :: name.bytes)) :
    text.ReadsAs width offset (.array name) 3 := by
  have tag := held.head
  have first := held.tail.head
  have second := held.tail.tail.head
  constructor <;>
    simp [extent, tokenBetween, nameAt, tag, first, second, Tag.number, Tag.lineNumber,
      Tag.literal, Tag.scalar, Tag.string, Tag.array]

/-- A byte that is no tag with a payload is a token by itself. -/
theorem readsAs_single (plain : text.byteAt offset ∉ Tag.withPayload) :
    text.ReadsAs width offset
      (if Tag.firstWord ≤ text.byteAt offset then
        wordAt (text.byteAt offset - Tag.firstWord).toNat
      else Token.ofByte (text.byteAt offset)) 1 := by
  simp only [Tag.withPayload, List.mem_cons, List.not_mem_nil, or_false, not_or] at plain
  obtain ⟨notNumber, notLine, notLiteral, notScalar, notString, notArray, notEscape⟩ := plain
  refine ⟨by simp [extent, notNumber, notLine, notLiteral, notScalar, notString, notArray,
    notEscape], ?_⟩
  simp [tokenBetween, notNumber, notLine, notLiteral, notScalar, notString, notArray, notEscape]

/-- A word of the first part of the vocabulary is one byte. -/
theorem readsAs_short {token : Token} {code : Nat} (coded : token.code? = some code)
    (short : code < 74) (held : text.Holds offset [Tag.firstWord + code.toUInt8]) :
    text.ReadsAs width offset token 1 := by
  have value : (text.byteAt offset).toNat = 134 + code := by
    rw [held.head, UInt8.toNat_add, Nat.toUInt8, UInt8.toNat_ofNat']
    have first : Tag.firstWord.toNat = 134 := rfl
    omega
  have plain : text.byteAt offset ∉ Tag.withPayload := fun member => by
    have bounds := Tag.bounds_of_withPayload _ member
    omega
  have above : Tag.firstWord ≤ text.byteAt offset := by
    rw [UInt8.le_iff_toNat_le, value]
    exact Nat.le_add_right _ _
  have place : (text.byteAt offset - Tag.firstWord).toNat = code := by
    rw [UInt8.toNat_sub_of_le _ _ above, value]
    exact Nat.add_sub_cancel_left _ _
  have read := @readsAs_single _ width _ plain
  rwa [if_pos above, place, wordAt, Token.vocabulary_code? coded] at read

/-- A word of the second part of the vocabulary is two bytes. -/
theorem readsAs_long {token : Token} {code : Nat} (coded : token.code? = some code)
    (long : 74 ≤ code) (held : text.Holds offset [Tag.escape, (code - 74).toUInt8]) :
    text.ReadsAs width offset token 2 := by
  have tag := held.head
  have inside : code < 92 := Token.code?_lt coded
  have place : (text.byteAt (offset + 1)).toNat = code - 74 := by
    rw [held.tail.head, Nat.toUInt8, UInt8.toNat_ofNat']
    omega
  have sum : shortVocabulary.length + (text.byteAt (offset + 1)).toNat = code := by
    rw [place, Token.length_shortVocabulary]
    omega
  refine ⟨by simp [extent, tag, Tag.number, Tag.lineNumber, Tag.literal, Tag.scalar, Tag.string,
    Tag.array, Tag.escape], ?_⟩
  simp [tokenBetween, tag, sum, wordAt, Token.vocabulary_code? coded, Tag.number, Tag.lineNumber,
    Tag.literal, Tag.scalar, Tag.string, Tag.array, Tag.escape]

/-- A byte below the tags is a token of its own. -/
theorem readsAs_character {byte : UInt8} (below : byte < 128) (held : text.Holds offset [byte]) :
    text.ReadsAs width offset (Token.ofByte byte) 1 := by
  have small : byte.toNat < 128 := UInt8.lt_iff_toNat_lt.mp below
  have plain : text.byteAt offset ∉ Tag.withPayload := fun member => by
    rw [held.head] at member
    have bounds := Tag.bounds_of_withPayload _ member
    omega
  have notWord : ¬ Tag.firstWord ≤ text.byteAt offset := by
    rw [held.head, UInt8.not_le]
    exact UInt8.lt_trans below (by decide)
  have read := @readsAs_single _ width _ plain
  rwa [if_neg notWord, held.head] at read

/-- A word or an operator reads back from its code or its character. -/
theorem readsAs_encodeWord {token : Token} (held : text.Holds offset bytes)
    (encoded : token.encodeWord = .ok bytes)
    (spelled : token.code? = none → ∃ byte, byte < 128 ∧ token.spelling = [byte] ∧
      Token.ofByte byte = token) : text.ReadsAs width offset token bytes.length := by
  unfold Token.encodeWord at encoded
  rw [Token.length_shortVocabulary] at encoded
  split at encoded
  · rename_i code coded
    split at encoded
    · cases encoded
      exact readsAs_short coded ‹_› held
    · cases encoded
      exact readsAs_long coded (Nat.not_lt.mp ‹_›) held
  · obtain ⟨byte, below, one, back⟩ := spelled ‹_›
    rw [one] at encoded
    cases encoded
    exact back ▸ readsAs_character below held

theorem readsAs_operator {op : Operator} (held : text.Holds offset bytes)
    (encoded : (Token.operator op).encode width = .ok bytes) :
    text.ReadsAs width offset (.operator op) bytes.length := by
  refine readsAs_encodeWord held encoded fun uncoded => ?_
  cases op with
  | plus => exact ⟨43, by decide⟩
  | minus => exact ⟨45, by decide⟩
  | times => exact ⟨42, by decide⟩
  | «over» => exact ⟨47, by decide⟩
  | modulo => exact ⟨37, by decide⟩
  | caret => exact ⟨94, by decide⟩
  | equal => exact ⟨61, by decide⟩
  | less => exact ⟨60, by decide⟩
  | greater => exact ⟨62, by decide⟩
  | notEqual | lessEqual | greaterEqual | not | and | or => exact absurd uncoded (by decide)

theorem readsAs_word {keyword : Keyword} (held : text.Holds offset bytes)
    (encoded : (Token.word keyword).encode width = .ok bytes) :
    text.ReadsAs width offset (.word keyword) bytes.length := by
  refine readsAs_encodeWord held encoded fun uncoded => ?_
  exact absurd (Token.word_mem_vocabulary keyword) (List.idxOf?_eq_none_iff.mp uncoded)

/-- **A text that holds the bytes of a token reads as that token.** -/
theorem readsAs_of_encode {token : Token} (encodable : token.IsEncodable)
    (encoded : token.encode width = .ok bytes) (held : text.Holds offset bytes) :
    text.ReadsAs width offset token bytes.length := by
  cases token with
  | endOfText => exact (encodable.elim id fun ⟨_, same⟩ => nomatch same).elim
  | number value =>
    cases encoded
    exact readsAs_number held
  | lineNumber line =>
    cases encoded
    have read := readsAs_lineNumber held
    rwa [List.length_cons, AddressWidth.length_encode, Nat.add_comm]
  | literal literal =>
    simp only [Token.encode] at encoded
    split at encoded
    · cases encoded
    · cases encoded
      have read := @readsAs_literal _ width _ _ (Nat.not_lt.mp ‹_›) held
      rwa [show 2 + literal.length = literal.length + 1 + 1 by omega] at read
  | scalar name =>
    cases encoded
    exact readsAs_scalar held
  | string name =>
    cases encoded
    exact readsAs_string held
  | array name =>
    cases encoded
    exact readsAs_array held
  | word keyword => exact readsAs_word held encoded
  | operator op => exact readsAs_operator held encoded
  | symbol byte =>
    have same : Token.ofByte byte = .symbol byte :=
      encodable.elim id fun ⟨_, other⟩ => nomatch other
    have ascii : (byte < 128 && byte ≠ 0) = true := by
      by_contra other
      unfold Token.ofByte at same
      split_ifs at same
      -- Only a byte that is not ASCII reads as a question mark, which is ASCII.
      exact other (Token.symbol.inj same ▸ by decide)
    simp only [Token.encode, ascii, if_true] at encoded
    cases encoded
    have below : byte < 128 := by simpa using (Bool.and_eq_true_iff.mp ascii).1
    exact same ▸ readsAs_character below held

/-! ### Decoding -/

theorem length_pos_of_encode {token : Token} (encodable : token.IsEncodable)
    (encoded : token.encode width = .ok bytes) : 0 < bytes.length := by
  have held : (ofBytes ([] ++ bytes ++ [])).Holds 0 bytes := holds_ofBytes [] bytes []
  have read := readsAs_of_encode encodable encoded held
  rw [← read.1]
  exact one_le_extent _ width 0

/-- **Encoding and decoding a token gives it back**, and moves behind its bytes. -/
theorem decode_of_holds {token : Token} (encodable : token.IsEncodable)
    (encoded : token.encode width = .ok bytes) (held : text.Holds offset bytes) :
    text.decode width offset = (token, offset + bytes.length) := by
  have some := length_pos_of_encode encodable encoded
  have inside := held.1
  obtain ⟨length, read⟩ := readsAs_of_encode encodable encoded held
  have notAtEnd : ¬ text.length ≤ offset := by omega
  have notCut : ¬ text.length < offset + bytes.length := by omega
  rw [decode, if_neg notAtEnd]
  simp only [length, if_neg notCut, read]

/-- Only the number of a line begins like one. -/
theorem byteAt_ne_of_storable {token : Token} (storable : token.IsStorable)
    (encoded : token.encode width = .ok bytes) (held : text.Holds offset bytes) :
    text.byteAt offset ≠ Tag.lineNumber := by
  intro tag
  obtain ⟨_, read⟩ := readsAs_of_encode (.inl storable) encoded held
  simp only [tokenBetween, tag] at read
  rw [if_neg (by decide), if_pos trivial] at read
  rw [← read] at storable
  exact storable

end ProgramText

/-! ### Tokens in order -/

variable {width : AddressWidth} {bytes : Bytes}

theorem encodeAll_cons {token : Token} {rest : List Token} :
    encodeAll width (token :: rest) = .ok bytes ↔
      ∃ first others, token.encode width = .ok first ∧ encodeAll width rest = .ok others ∧
        bytes = first ++ others := by
  rw [encodeAll]
  cases token.encode width with
  | error _ => simp [bind, Except.bind]
  | ok first =>
    cases encodeAll width rest with
    | error _ => simp [bind, Except.bind]
    | ok others => simp [bind, Except.bind, pure, Except.pure, eq_comm]

/-- The bytes of a line are those of its number and those of its tokens. -/
theorem encodeAll_line {line : LineNumber} {body : List Token} :
    encodeAll width (.lineNumber line :: body) = .ok bytes ↔
      ∃ others, encodeAll width body = .ok others ∧
        bytes = (Tag.lineNumber :: width.encode line.toNat) ++ others := by
  simp [encodeAll_cons, Token.encode]

theorem length_pos_of_encodeAll {line : LineNumber} {body : List Token}
    (encoded : encodeAll width (.lineNumber line :: body) = .ok bytes) : 0 < bytes.length := by
  obtain ⟨others, -, rfl⟩ := encodeAll_line.mp encoded
  exact Nat.succ_pos _

end PocketBasic
