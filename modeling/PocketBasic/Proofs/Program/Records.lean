/-
**Records of lines.** A stored program is one record after another: the number of a line and its
tokens. The walks over a text that holds records meet exactly these, although bytes inside of a
token may look like the number of a line.

* `LineRecord`: a line with its bytes; `LineRecord.spansFrom`: where records stand one by one;
* `ProgramText.lines_ofRecords`: the lines of a text made of records;
* `ProgramText.lineTokens_of_holds`: the tokens of a line are the ones that were encoded.
-/

import Mathlib.Data.List.Basic
import Mathlib.Tactic.Common
import PocketBasic.Program.Lines
import PocketBasic.Proofs.Program.Decoding

namespace PocketBasic

/-- Whether spans cover a range in order and without gaps. -/
def LineSpan.Tile : Nat → Nat → List LineSpan → Prop
  | first, last, [] => first = last
  | first, last, span :: rest => span.start = first ∧ Tile span.stop last rest

/-- A line with storable tokens and the bytes that it is stored as. -/
structure LineRecord (width : AddressWidth) where
  number : LineNumber
  body : List Token
  bytes : Bytes
  storable : ∀ token ∈ body, token.IsStorable
  encoded : encodeAll width (.lineNumber number :: body) = .ok bytes

namespace LineRecord

variable {width : AddressWidth}

/-- The bytes of records in order. -/
def image (records : List (LineRecord width)) : Bytes := records.flatMap (·.bytes)

@[simp]
theorem image_nil : image ([] : List (LineRecord width)) = [] := rfl

@[simp]
theorem image_cons (record : LineRecord width) (rest : List (LineRecord width)) :
    image (record :: rest) = record.bytes ++ image rest := List.flatMap_cons

@[simp]
theorem image_append (first second : List (LineRecord width)) :
    image (first ++ second) = image first ++ image second := List.flatMap_append

/-- Where records stand when the first one begins at an offset. -/
def spansFrom : Nat → List (LineRecord width) → List LineSpan
  | _, [] => []
  | start, record :: rest =>
    let stop := start + record.bytes.length
    { number := record.number, start, stop } :: spansFrom stop rest

/-- The bytes of a record are those of its number and those of its tokens. -/
theorem bytes_eq (record : LineRecord width) :
    ∃ others, encodeAll width record.body = .ok others ∧
      record.bytes = (Tag.lineNumber :: width.encode record.number.toNat) ++ others :=
  encodeAll_line.mp record.encoded

theorem length_pos (record : LineRecord width) : 0 < record.bytes.length :=
  length_pos_of_encodeAll record.encoded

theorem length_le_image (records : List (LineRecord width)) :
    records.length ≤ (image records).length := by
  induction records with
  | nil => exact Nat.le_refl _
  | cons record rest ih =>
    have := record.length_pos
    rw [image_cons, List.length_append, List.length_cons]
    omega

theorem spansFrom_append (start : Nat) (first second : List (LineRecord width)) :
    spansFrom start (first ++ second) =
      spansFrom start first ++ spansFrom (start + (image first).length) second := by
  induction first generalizing start with
  | nil => rfl
  | cons record rest ih =>
    rw [List.cons_append, spansFrom, spansFrom, ih, image_cons, List.length_append, Nat.add_assoc,
      List.cons_append]

/-- Records stand one behind the other. -/
theorem tile_spansFrom (start : Nat) (records : List (LineRecord width)) :
    LineSpan.Tile start (start + (image records).length) (spansFrom start records) := by
  induction records generalizing start with
  | nil => exact rfl
  | cons record rest ih =>
    rw [image_cons, List.length_append, ← Nat.add_assoc]
    exact ⟨rfl, ih (start + record.bytes.length)⟩

/-- The numbers of the spans are the numbers of the records. -/
theorem map_number_spansFrom (start : Nat) (records : List (LineRecord width)) :
    (spansFrom start records).map (·.number) = records.map (·.number) := by
  induction records generalizing start with
  | nil => rfl
  | cons record rest ih => rw [spansFrom, List.map_cons, List.map_cons, ih]

theorem number_of_mem_spansFrom {start : Nat} {records : List (LineRecord width)}
    {span : LineSpan} (member : span ∈ spansFrom start records) :
    ∃ record ∈ records, span.number = record.number := by
  have number := List.mem_map_of_mem (f := (·.number)) member
  rw [map_number_spansFrom] at number
  obtain ⟨record, among, same⟩ := List.mem_map.mp number
  exact ⟨record, among, same.symm⟩

end LineRecord

namespace ProgramText

variable {text : ProgramText} {width : AddressWidth} {offset : Nat} {bytes : Bytes}

/-! ### Over the tokens of a line -/

/-- **A walk in search of a line number passes all storable tokens.** -/
theorem lineStartWithin_of_holds {tokens : List Token}
    (storable : ∀ token ∈ tokens, token.IsStorable)
    (encoded : encodeAll width tokens = .ok bytes) (held : text.Holds offset bytes)
    (stops : text.length ≤ offset + bytes.length ∨
      text.byteAt (offset + bytes.length) = Tag.lineNumber) {fuel : Nat}
    (enough : bytes.length ≤ fuel) :
    text.lineStartWithin width fuel offset = offset + bytes.length := by
  induction tokens generalizing offset bytes fuel with
  | nil =>
    cases encoded
    rcases fuel with _ | fuel
    · rfl
    · exact if_pos (by simpa using stops)
  | cons token rest ih =>
    obtain ⟨first, others, token, tokens, rfl⟩ := encodeAll_cons.mp encoded
    have here := storable _ List.mem_cons_self
    have moves := length_pos_of_encode (.inl here) token
    have inside := held.1
    rw [List.length_append] at stops enough inside ⊢
    obtain ⟨fuel, rfl⟩ : ∃ less, fuel = less + 1 := ⟨fuel - 1, by omega⟩
    have goes : ¬ (text.length ≤ offset || text.byteAt offset = Tag.lineNumber) = true := by
      simpa using ⟨by omega, byteAt_ne_of_storable here token held.left⟩
    rw [lineStartWithin, if_neg goes, (readsAs_of_encode (.inl here) token held.left).1,
      ← Nat.add_assoc]
    exact ih (fun token member => storable token (List.mem_cons_of_mem _ member)) tokens held.right
      (by rwa [Nat.add_assoc]) (by omega)

/-- The tokens between two places are the ones whose bytes stand there. -/
theorem tokensWithin_of_holds {tokens : List Token} (storable : ∀ token ∈ tokens, token.IsStorable)
    (encoded : encodeAll width tokens = .ok bytes) (held : text.Holds offset bytes) {fuel : Nat}
    (enough : bytes.length ≤ fuel) :
    text.tokensWithin width (offset + bytes.length) fuel offset = tokens := by
  induction tokens generalizing offset bytes fuel with
  | nil =>
    cases encoded
    rcases fuel with _ | fuel
    · rfl
    · exact if_pos (Nat.le_refl _)
  | cons token rest ih =>
    obtain ⟨first, others, single, tokens, rfl⟩ := encodeAll_cons.mp encoded
    have here := storable token List.mem_cons_self
    have moves := length_pos_of_encode (.inl here) single
    rw [List.length_append] at enough ⊢
    obtain ⟨fuel, rfl⟩ : ∃ less, fuel = less + 1 := ⟨fuel - 1, by omega⟩
    have fewer : others.length ≤ fuel := by omega
    have later := ih (fun token member => storable token (List.mem_cons_of_mem _ member)) tokens
      held.right fewer
    have some : token ≠ .endOfText := by
      rintro rfl
      exact here
    rw [tokensWithin, if_neg (by omega), decode_of_holds (.inl here) single held.left]
    rw [← Nat.add_assoc]
    simp only [later]

/-! ### Over records -/

/-- The record at an offset of a text, read as the number of a line. -/
theorem readsAs_record (record : LineRecord width) (held : text.Holds offset record.bytes) :
    text.ReadsAs width offset (.lineNumber record.number) (1 + width.byteCount) := by
  obtain ⟨others, -, same⟩ := record.bytes_eq
  rw [same] at held
  exact readsAs_lineNumber held.left

theorem byteAt_record (record : LineRecord width) (held : text.Holds offset record.bytes) :
    text.byteAt offset = Tag.lineNumber := by
  obtain ⟨others, -, same⟩ := record.bytes_eq
  rw [same, List.cons_append] at held
  exact held.head

/-- Behind a record that the text ends with or another one follows, the next line begins. -/
theorem lineStartFrom_of_record (record : LineRecord width)
    (held : text.Holds offset record.bytes)
    (stops : text.length ≤ offset + record.bytes.length ∨
      text.byteAt (offset + record.bytes.length) = Tag.lineNumber) :
    text.lineStartFrom width (offset + text.extent width offset) =
      offset + record.bytes.length := by
  obtain ⟨others, tokens, same⟩ := record.bytes_eq
  have behind : offset + record.bytes.length = offset + (1 + width.byteCount) + others.length := by
    rw [same, List.length_append, List.length_cons, AddressWidth.length_encode]
    omega
  rw [(readsAs_record record held).1]
  rw [behind] at stops ⊢
  rw [same] at held
  have rest := held.right
  rw [List.length_cons, AddressWidth.length_encode, Nat.add_comm width.byteCount 1] at rest
  have enough : others.length ≤ text.length - (offset + (1 + width.byteCount)) := by
    have inside := rest.1
    omega
  exact lineStartWithin_of_holds record.storable tokens rest stops enough

/-- **A text that ends with records has these lines from there on.** -/
theorem linesWithin_of_holds {records : List (LineRecord width)}
    (held : text.Holds offset (LineRecord.image records))
    (ends : text.length = offset + (LineRecord.image records).length) {fuel : Nat}
    (enough : records.length ≤ fuel) :
    text.linesWithin width fuel offset = LineRecord.spansFrom offset records := by
  induction records generalizing offset fuel with
  | nil =>
    rcases fuel with _ | fuel
    · rfl
    · have none : text.length - offset = 0 := by
        rw [ends]
        exact Nat.sub_self offset
      rw [linesWithin, lineStartFrom, none]
      exact if_pos (Nat.le_of_eq ends)
  | cons record rest ih =>
    rw [List.length_cons] at enough
    obtain ⟨fuel, rfl⟩ : ∃ less, fuel = less + 1 := ⟨fuel - 1, by omega⟩
    rw [LineRecord.image_cons] at held ends
    rw [List.length_append, ← Nat.add_assoc] at ends
    have moves := record.length_pos
    have marked := byteAt_record record held.left
    have starts : text.lineStartFrom width offset = offset := by
      obtain ⟨less, more⟩ : ∃ less, text.length - offset = less + 1 :=
        ⟨text.length - offset - 1, by omega⟩
      rw [lineStartFrom, more, lineStartWithin, if_pos (by simp [marked])]
    have follows : text.lineStartFrom width (offset + text.extent width offset) =
        offset + record.bytes.length := by
      refine lineStartFrom_of_record record held.left ?_
      cases rest with
      | nil => exact .inl (Nat.le_of_eq ends)
      | cons next others =>
        have later := held.right
        rw [LineRecord.image_cons] at later
        exact .inr (byteAt_record next later.left)
    have number : UInt16.ofNat (text.addressAt width (offset + 1)) = record.number := by
      have read := (readsAs_record record held.left).2
      rw [tokenBetween] at read
      simpa [marked, Tag.lineNumber, Tag.number] using read
    have notPast : ¬ text.length ≤ offset := by omega
    have within : min (offset + record.bytes.length) text.length =
        offset + record.bytes.length := by
      omega
    rw [linesWithin]
    simp only [starts, follows, number, within, if_neg notPast]
    rw [ih held.right ends (by omega), LineRecord.spansFrom]

/-- **The lines of records**: their numbers in order, each where the one before it ends. -/
theorem lines_ofRecords (records : List (LineRecord width)) :
    (ofBytes (LineRecord.image records)).lines width = LineRecord.spansFrom 0 records := by
  have held : (ofBytes ([] ++ LineRecord.image records ++ [])).Holds 0 (LineRecord.image records) :=
    holds_ofBytes [] _ []
  rw [List.nil_append, List.append_nil] at held
  exact linesWithin_of_holds held (Nat.zero_add _).symm (LineRecord.length_le_image records)

/-- **The tokens of a line are those of its record.** -/
theorem lineTokens_of_holds (record : LineRecord width) (held : text.Holds offset record.bytes) :
    text.lineTokens width
      { number := record.number, start := offset, stop := offset + record.bytes.length } =
      record.body := by
  obtain ⟨others, tokens, same⟩ := record.bytes_eq
  have number : Token.encode width (.lineNumber record.number) =
      .ok (Tag.lineNumber :: width.encode record.number.toNat) := rfl
  rw [same] at held ⊢
  have rest := held.right
  have inside := rest.1
  rw [lineTokens, decode_of_holds (.inr ⟨_, rfl⟩) number held.left, List.length_append,
    ← Nat.add_assoc]
  exact tokensWithin_of_holds record.storable tokens rest (by omega)

/-- Cutting a text off behind bytes that it holds keeps them. -/
theorem Holds.truncate (held : text.Holds offset bytes) {length : Nat}
    (inside : offset + bytes.length ≤ length) : (text.truncate length).Holds offset bytes := by
  refine ⟨Nat.le_min.mpr ⟨inside, held.1⟩, fun place within => ?_⟩
  rw [← held.2 place within]
  exact if_pos (by omega)

end ProgramText

end PocketBasic
