/-
**Data in the text of a program.** `DATA` statements hold lists of texts and numbers, and stand
anywhere among the other statements of a program. Which value comes next is found by going over the
tokens of the program from a place on, and the values that are found so are those of the lists, one
after the other.

* `DataItem`: an item of a list as it is written, with its value;
* `Token.ListsData`: the tokens of a line and the values of its `DATA` statements;
* `ProgramText.HasTokens`: the tokens of a text from an offset to its end;
* `Token.DataAhead`, `ProgramText.Awaits`: the values that come after a place;
* **`ProgramText.Awaits.finds_nextDatum`**: they are found one by one;
* **`ProgramText.awaits_of_records`**: before lines come the values of all of them.
-/

import Mathlib.Data.List.Basic
import Mathlib.Tactic.Common
import PocketBasic.Machine.Data
import PocketBasic.Proofs.Program.Records

namespace PocketBasic

/-! ### Lists of data -/

/-- An item of a `DATA` statement as it is written: a text, or a number without or with a sign. -/
inductive DataItem where
  | text (value : Bytes)
  | number (value : Single)
  | signed (isNegative : Bool) (value : Single)
  deriving DecidableEq

namespace DataItem

/-- The tokens of an item. -/
def tokens : DataItem → List Token
  | text value => [.literal value]
  | number value => [.number value]
  | signed isNegative value => [.operator (if isNegative then .minus else .plus), .number value]

/-- The value of an item, with its sign. -/
def datum : DataItem → Datum
  | text value => .text value
  | number value => .number value
  | signed isNegative value => .number (if isNegative then value.negate else value)

/-- The tokens of a list, which has commas between its items. -/
def listTokens : List DataItem → List Token
  | [] => []
  | [item] => item.tokens
  | item :: next :: rest => item.tokens ++ .symbol 44 :: listTokens (next :: rest)

end DataItem

namespace Token

/-- Whether the `DATA` statements among the tokens of a line are lists, each up to a colon or to the
end of the line, and what their values are in order. -/
inductive ListsData : List Token → List Datum → Prop
  | nil : ListsData [] []
  | other {token : Token} {rest : List Token} {data : List Datum} (notData : token ≠ .word .data) :
    ListsData rest data → ListsData (token :: rest) data
  | statement {rest : List Token} {data : List Datum} (items : List DataItem)
    (ends : ∀ token ∈ rest.head?, token = .symbol 58) :
    ListsData rest data →
      ListsData (.word .data :: (DataItem.listTokens items ++ rest)) (items.map (·.datum) ++ data)

/-- The values that tokens hold when they are read from the inside of a `DATA` statement or from
outside of one. Between two items anything may stand that is passed over there. -/
inductive DataAhead : Bool → List Token → List Datum → Prop
  | done {inside : Bool} : DataAhead inside [] []
  | other {token : Token} {rest : List Token} {data : List Datum} (notData : token ≠ .word .data) :
    DataAhead false rest data → DataAhead false (token :: rest) data
  | opens {rest : List Token} {data : List Datum} :
    DataAhead true rest data → DataAhead false (.word .data :: rest) data
  | closes {token : Token} {rest : List Token} {data : List Datum}
    (ends : token.isTerminator = true) :
    DataAhead false rest data → DataAhead true (token :: rest) data
  | comma {rest : List Token} {data : List Datum} :
    DataAhead true rest data → DataAhead true (.symbol 44 :: rest) data
  | item {rest : List Token} {data : List Datum} (item : DataItem) :
    DataAhead true rest data → DataAhead true (item.tokens ++ rest) (item.datum :: data)

namespace DataAhead

variable {tokens rest : List Token} {data more : List Datum}

/-- At the end of a statement it does not matter whether it is a `DATA` statement. -/
theorem inside_of_head (ahead : DataAhead false tokens data)
    (ends : ∀ token ∈ tokens.head?, token.isTerminator = true) : DataAhead true tokens data := by
  cases ahead with
  | done => exact .done
  | other _ later => exact .closes (ends _ rfl) later
  | opens _ => exact nomatch ends _ rfl

/-- The items of a list come before what follows it. -/
theorem list (items : List DataItem) (ahead : DataAhead true rest data) :
    DataAhead true (DataItem.listTokens items ++ rest) (items.map (·.datum) ++ data) := by
  induction items with
  | nil => exact ahead
  | cons first others ih =>
    cases others with
    | nil => exact .item first ahead
    | cons next later =>
      rw [DataItem.listTokens, List.append_assoc, List.cons_append]
      exact .item first (.comma ih)

/-- **The data of a line come before those of the lines behind it.** -/
theorem line (lists : ListsData tokens data) (ahead : DataAhead false rest more)
    (ends : ∀ token ∈ rest.head?, token.isTerminator = true) :
    DataAhead false (tokens ++ rest) (data ++ more) := by
  induction lists with
  | nil => exact ahead
  | other notData _ ih => exact .other notData ih
  | @statement behind later items colon _ ih =>
    rw [List.cons_append, List.append_assoc, List.append_assoc]
    refine .opens (.list items (ih.inside_of_head ?_))
    cases behind with
    | nil => exact ends
    | cons token others =>
      rintro _ ⟨⟩
      rw [colon token rfl]
      rfl

end DataAhead

end Token

/-! ### The tokens of a text -/

namespace ProgramText

variable {text : ProgramText} {width : AddressWidth} {offset next : Nat} {token : Token}
  {tokens rest : List Token}

/-- Whether a text has these tokens from an offset to its end. -/
def HasTokens (text : ProgramText) (width : AddressWidth) : Nat → List Token → Prop
  | offset, [] => text.length ≤ offset
  | offset, token :: rest => token ≠ .endOfText ∧
    ∃ next, text.decode width offset = (token, next) ∧ text.HasTokens width next rest

/-- Every token takes a byte. -/
theorem lt_of_decode (some : token ≠ .endOfText) (read : text.decode width offset = (token, next)) :
    offset < next ∧ offset < text.length := by
  have moves := text.one_le_extent width offset
  rw [decode] at read
  dsimp only at read
  split_ifs at read <;> cases read
  · exact absurd rfl some
  · exact absurd rfl some
  · omega

/-- There are no more tokens than bytes. -/
theorem HasTokens.length_le (has : text.HasTokens width offset tokens) :
    tokens.length ≤ text.length - offset := by
  induction tokens generalizing offset with
  | nil => exact Nat.zero_le _
  | cons token rest ih =>
    obtain ⟨some, next, read, later⟩ := has
    have bounds := lt_of_decode some read
    have fewer := ih later
    rw [List.length_cons]
    omega

/-- Bytes that hold tokens are these tokens, in front of the others. -/
theorem HasTokens.of_holds {bytes : Bytes} (encodable : ∀ token ∈ tokens, token.IsEncodable)
    (encoded : encodeAll width tokens = .ok bytes) (held : text.Holds offset bytes)
    (has : text.HasTokens width (offset + bytes.length) rest) :
    text.HasTokens width offset (tokens ++ rest) := by
  induction tokens generalizing offset bytes with
  | nil =>
    cases encoded
    exact has
  | cons token others ih =>
    obtain ⟨first, later, one, all, rfl⟩ := encodeAll_cons.mp encoded
    have here := encodable token List.mem_cons_self
    rw [List.length_append, ← Nat.add_assoc] at has
    refine ⟨?_, _, decode_of_holds here one held.left,
      ih (fun token member => encodable token (List.mem_cons_of_mem _ member)) all held.right has⟩
    rintro rfl
    exact here.elim id fun ⟨_, same⟩ => nomatch same

/-- The tokens of records: the number of each line, and its body. -/
theorem hasTokens_of_records {records : List (LineRecord width)}
    (held : text.Holds offset (LineRecord.image records))
    (ends : text.length = offset + (LineRecord.image records).length) :
    text.HasTokens width offset
      (records.flatMap fun record => .lineNumber record.number :: record.body) := by
  induction records generalizing offset with
  | nil => exact Nat.le_of_eq ends
  | cons record others ih =>
    rw [LineRecord.image_cons] at held ends
    rw [List.length_append, ← Nat.add_assoc] at ends
    refine HasTokens.of_holds (fun token member => ?_) record.encoded held.left (ih held.right ends)
    rcases List.mem_cons.mp member with rfl | inBody
    · exact .inr ⟨_, rfl⟩
    · exact .inl (record.storable token inBody)

/-! ### One token more -/

theorem nextDatumWithin_of_end (ends : text.length ≤ offset) (fuel : Nat) (inside negative : Bool) :
    text.nextDatumWithin width fuel offset inside negative = .error { kind := .outOfData } := by
  cases fuel with
  | zero => rfl
  | succ fuel =>
    rw [nextDatumWithin, decode, if_pos ends]
    exact if_pos rfl

section

variable {fuel : Nat} {negative : Bool}

/-- Outside of `DATA` statements one begins or the token is passed over. -/
theorem nextDatumWithin_outside (read : text.decode width offset = (token, next))
    (some : token ≠ .endOfText) :
    text.nextDatumWithin width (fuel + 1) offset false negative =
      text.nextDatumWithin width fuel next (token.isWord .data) negative := by
  rw [nextDatumWithin, read]
  exact if_neg some

/-- At its end a `DATA` statement is left. -/
theorem nextDatumWithin_closes (read : text.decode width offset = (token, next))
    (some : token ≠ .endOfText) (ends : token.isTerminator = true) :
    text.nextDatumWithin width (fuel + 1) offset true negative =
      text.nextDatumWithin width fuel next false negative := by
  rw [nextDatumWithin, read]
  dsimp only
  rw [if_neg some]
  cases token with
  | endOfText => exact absurd rfl some
  | lineNumber line => rfl
  | symbol byte =>
    obtain rfl : byte = 58 := by simpa [Token.isTerminator] using ends
    rfl
  | number _ | literal _ | scalar _ | string _ | array _ | word _ | operator _ => cases ends

theorem nextDatumWithin_comma (read : text.decode width offset = (.symbol 44, next)) :
    text.nextDatumWithin width (fuel + 1) offset true negative =
      text.nextDatumWithin width fuel next true negative := by
  rw [nextDatumWithin, read]
  rfl

theorem nextDatumWithin_sign (isNegative : Bool) (read : text.decode width offset =
      (.operator (if isNegative then .minus else .plus), next)) :
    text.nextDatumWithin width (fuel + 1) offset true false =
      text.nextDatumWithin width fuel next true isNegative := by
  rw [nextDatumWithin, read]
  cases isNegative <;> rfl

theorem nextDatumWithin_number {value : Single}
    (read : text.decode width offset = (.number value, next)) :
    text.nextDatumWithin width (fuel + 1) offset true negative =
      .ok (.number (if negative then value.negate else value), next) := by
  rw [nextDatumWithin, read]
  rfl

theorem nextDatumWithin_literal {value : Bytes}
    (read : text.decode width offset = (.literal value, next)) :
    text.nextDatumWithin width (fuel + 1) offset true negative = .ok (.text value, next) := by
  rw [nextDatumWithin, read]
  rfl

end

/-- Where a token comes first, there is fuel for it and for the others. -/
theorem exists_fuel {fuel : Nat} (enough : (token :: rest).length < fuel) :
    ∃ less, fuel = less + 1 ∧ rest.length < less :=
  ⟨fuel - 1, by rw [List.length_cons] at enough; omega⟩

/-- **An item is found with its sign.** -/
theorem nextDatumWithin_item (item : DataItem)
    (has : text.HasTokens width offset (item.tokens ++ rest)) {fuel : Nat}
    (enough : (item.tokens ++ rest).length < fuel) :
    ∃ next, text.nextDatumWithin width fuel offset true false = .ok (item.datum, next) ∧
      text.HasTokens width next rest := by
  obtain ⟨fuel, rfl⟩ : ∃ less, fuel = less + 1 := ⟨fuel - 1, by omega⟩
  cases item with
  | text value =>
    obtain ⟨-, next, read, later⟩ := has
    exact ⟨next, nextDatumWithin_literal read, later⟩
  | number value =>
    obtain ⟨-, next, read, later⟩ := has
    exact ⟨next, nextDatumWithin_number read, later⟩
  | signed isNegative value =>
    obtain ⟨-, behindSign, sign, -, next, read, later⟩ := has
    obtain ⟨fuel, rfl, -⟩ := exists_fuel (Nat.lt_of_succ_lt_succ enough)
    exact ⟨next, (nextDatumWithin_sign isNegative sign).trans (nextDatumWithin_number read), later⟩

/-! ### The next value -/

/-- Whether the data of a text that are still to be taken from a place on have certain values. -/
def Awaits (text : ProgramText) (width : AddressWidth) (place : DataCursor) (data : List Datum) :
    Prop :=
  match place with
  | .search offset => ∃ tokens,
    text.HasTokens width offset tokens ∧ Token.DataAhead false tokens data
  | .inside offset => ∃ tokens,
    text.HasTokens width offset tokens ∧ Token.DataAhead true tokens data

/-- What a search for the next value finds if there are certain values ahead: the first of them, and
a place before the others, or that there are no more data. -/
def Finds (text : ProgramText) (width : AddressWidth) (found : Except Error (Datum × Nat)) :
    List Datum → Prop
  | [] => found = .error { kind := .outOfData }
  | datum :: later => ∃ next, found = .ok (datum, next) ∧ text.Awaits width (.inside next) later

/-- **The first of the values ahead is found.** By induction on what is passed over before it. -/
theorem finds_nextDatumWithin {inside : Bool} {data : List Datum}
    (ahead : Token.DataAhead inside tokens data) (has : text.HasTokens width offset tokens)
    {fuel : Nat} (enough : tokens.length < fuel) :
    text.Finds width (text.nextDatumWithin width fuel offset inside false) data := by
  induction ahead generalizing offset fuel with
  | done => exact nextDatumWithin_of_end has _ _ _
  | @other token _ _ notData _ ih =>
    obtain ⟨some, next, read, later⟩ := has
    obtain ⟨fuel, rfl, fewer⟩ := exists_fuel enough
    have passed : token.isWord .data = false := by
      cases token <;> first | rfl | simpa [Token.isWord] using notData
    rw [nextDatumWithin_outside read some, passed]
    exact ih later fewer
  | opens _ ih =>
    obtain ⟨some, next, read, later⟩ := has
    obtain ⟨fuel, rfl, fewer⟩ := exists_fuel enough
    rw [nextDatumWithin_outside read some]
    exact ih later fewer
  | closes ends _ ih =>
    obtain ⟨some, next, read, later⟩ := has
    obtain ⟨fuel, rfl, fewer⟩ := exists_fuel enough
    rw [nextDatumWithin_closes read some ends]
    exact ih later fewer
  | comma _ ih =>
    obtain ⟨some, next, read, later⟩ := has
    obtain ⟨fuel, rfl, fewer⟩ := exists_fuel enough
    rw [nextDatumWithin_comma read]
    exact ih later fewer
  | item item later _ =>
    obtain ⟨next, found, has⟩ := nextDatumWithin_item item has enough
    exact ⟨next, found, _, has, later⟩

/-- **The values that a place awaits are found one by one.** -/
theorem Awaits.finds_nextDatum {place : DataCursor} {data : List Datum}
    (awaits : text.Awaits width place data) :
    text.Finds width (text.nextDatum width place) data := by
  cases place with
  | search offset | inside offset =>
    obtain ⟨tokens, has, ahead⟩ := awaits
    have fewer := has.length_le
    exact finds_nextDatumWithin ahead has (by omega)

/-- **Before lines whose `DATA` statements are lists come the values of all of them in order.** -/
theorem awaits_of_records {records : List (LineRecord width)}
    {listed : LineRecord width → List Datum}
    (lists : ∀ record ∈ records, Token.ListsData record.body (listed record))
    (held : text.Holds offset (LineRecord.image records))
    (ends : text.length = offset + (LineRecord.image records).length) :
    text.Awaits width (.search offset) (records.flatMap listed) := by
  refine ⟨_, hasTokens_of_records held ends, ?_⟩
  clear held ends
  induction records with
  | nil => exact .done
  | cons record others ih =>
    have later := ih fun record member => lists record (List.mem_cons_of_mem _ member)
    rw [List.flatMap_cons, List.flatMap_cons, List.cons_append]
    refine .other nofun (Token.DataAhead.line (lists record List.mem_cons_self) later ?_)
    cases others with
    | nil => exact nofun
    | cons next others =>
      rintro _ ⟨⟩
      rfl

end ProgramText

end PocketBasic
