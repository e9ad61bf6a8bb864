/-
**The listing of a program.** A line that was typed and stored is listed as a text from which the
same tokens are read, unless two of them run together.

* `ProgramText.listing_of_holds`: the lines of records are listed by their numbers and tokens;
* `TypedLine.isTyped_tokens`: the tokens of a typed line can be stored;
* **`Memory.listed_line_reads_back`**: what is listed of a stored line is the line again;
* `Memory.listing_joins_numbers`: two numbers side by side are listed as one.
-/

import Mathlib.Tactic.Common
import PocketBasic.Proofs.Memory.Session
import PocketBasic.Proofs.Program.Listing

namespace PocketBasic

/-! ### Listed records -/

/-- **Records are listed** by their numbers and tokens. -/
theorem ProgramText.listing_of_holds {width : AddressWidth} {text : ProgramText} {offset : Nat}
    {records : List (LineRecord width)} (held : text.Holds offset (LineRecord.image records))
    (within : LineNumber → Bool) :
    ((LineRecord.spansFrom offset records).filter fun span => within span.number).map (fun span =>
        Listing.lineText span.number (text.lineTokens width span)) =
      (records.filter fun record => within record.number).map fun record =>
        Listing.lineText record.number record.body := by
  induction records generalizing offset with
  | nil => rfl
  | cons record rest ih =>
    rw [LineRecord.image_cons] at held
    have tokens := lineTokens_of_holds record held.left
    rw [LineRecord.spansFrom, List.filter_cons, List.filter_cons]
    cases kept : within record.number with
    | true =>
      simp only [if_true, List.map_cons, tokens]
      rw [ih held.right]
    | false =>
      simp only [Bool.false_eq_true, if_false]
      rw [ih held.right]

namespace Memory

variable {memory : Memory} {width : AddressWidth} {records : List (LineRecord width)}

/-- **A program is listed line by line.** -/
theorem HoldsLines.listing_eq (held : HoldsLines memory records) (first last : LineNumber) :
    memory.program.listing memory.width first last =
      (records.filter fun record => first ≤ record.number && record.number ≤ last).map
        fun record => Listing.lineText record.number record.body := by
  have text : memory.program.Holds 0 (LineRecord.image records) := by
    have whole := ProgramText.holds_ofBytes [] (LineRecord.image records) []
    rw [List.nil_append, List.append_nil] at whole
    rw [held.program_eq]
    exact whole
  have lines := held.lines_eq
  rw [Memory.lines, held.width] at lines
  rw [ProgramText.listing, held.width, lines]
  exact ProgramText.listing_of_holds text fun number => first ≤ number && number ≤ last

/-- The listing of one line. -/
theorem HoldsLines.listing_line (held : HoldsLines memory records) {line : LineNumber}
    {body : List Token} (stored : LineRecord.table records line = some body) :
    memory.program.listing memory.width line line = [Listing.lineText line body] := by
  obtain ⟨lower, same, higher, split⟩ := LineRecord.exists_splitAt held.sorted line
  have table := split.table_replace split.equal
  rw [← split.cut] at table
  rw [table, Function.update_self] at stored
  have only : records.filter (fun record => line ≤ record.number && record.number ≤ line) =
      same := by
    have equal : same.filter (·.number ≤ line) = same :=
      List.filter_eq_self.mpr fun record member => by
        simp [split.equal record member]
    have above : higher.filter (·.number ≤ line) = [] :=
      List.filter_eq_nil_iff.mpr fun record member => by
        simpa using split.above record member
    have both := congrArg (List.filter (·.number ≤ line)) split.filter_le
    rw [List.filter_filter, List.filter_append, equal, above, List.append_nil] at both
    simpa only [Bool.and_comm] using both
  rw [held.listing_eq, only]
  match same, split, stored with
  | [], _, stored => cases stored
  | [record], split, stored =>
    cases stored
    rw [List.map_singleton, split.equal record List.mem_cons_self]
  | _ :: _ :: _, split, _ => exact absurd split.one (by simp)

end Memory

/-! ### Typed tokens -/

theorem TypedLine.isTyped_readings (line : TypedLine) :
    ∀ reading ∈ line.readings, reading.1.IsTyped := by
  induction line using TypedLine.readings.induct with
  | case1 line ends =>
    rw [readings_of_end ends]
    exact fun _ member => absurd member List.not_mem_nil
  | case2 line goesOn ih =>
    rw [readings_of_token goesOn]
    exact List.forall_mem_cons.mpr ⟨⟨goesOn, line, rfl⟩, ih⟩

/-- The tokens of a line as it was typed are typed. -/
theorem TypedLine.isTyped_tokens (text : Bytes) (fractions : Bool) :
    ∀ token ∈ (ofText text fractions).tokens, token.IsTyped := by
  rw [tokens_ofText]
  intro token member
  obtain ⟨reading, among, rfl⟩ := List.mem_map.mp member
  exact isTyped_readings _ reading among

namespace Memory

/-- **A listed line is the line that was stored.** -/
theorem listed_line_reads_back {size : Nat} {calls : List Call} {fractions : Bool} {text : Bytes}
    {number : Single} {line : LineNumber} {body : List Token} {edited : Memory}
    (others : ∀ call ∈ calls, call.IsTyped)
    (typed : (TypedLine.ofText text fractions).tokens = .number number :: body)
    (numbered : LineNumber.ofSingle? number = some line) (filled : body ≠ [])
    (stored : (Memory.storeLine line body).runOn (Session.run size calls).memory = (.ok (), edited))
    (apart : Listing.keepsApart fractions body = true) :
    edited.program.listing edited.width line line = [Listing.lineText line body] ∧
      (TypedLine.ofText (Listing.lineText line body) fractions).tokens =
        .number number :: body := by
  refine ⟨?_, Listing.tokens_lineText typed numbered filled apart⟩
  obtain ⟨records, lines, known⟩ := @Session.holdsTable_run size _ others
  obtain ⟨-, below, objects⟩ := Session.holdsHeap_run size calls
  have storable : ∀ token ∈ body, token.IsStorable := fun token member =>
    (TypedLine.isTyped_tokens text fractions token
      (typed ▸ List.mem_cons_of_mem _ member)).isStorable
  obtain ⟨after, held, changed⟩ := lines.storeLine below objects.inside storable stored
  refine held.listing_line ?_
  rw [changed, Function.update_self, if_neg filled]

/-- A loop that is typed without blanks behind a line that is there. -/
theorem listed_line_reads_back_loop :
    let calls := [Call.storeLine 10 [.word .end]]
    let body : List Token := [.word .for, .scalar ⟨73, 0⟩, .operator .equal, .number (.ofNat 1),
      .word .to, .number (.ofNat 3), .symbol 58, .word .print, .scalar ⟨73, 0⟩]
    let stored := (Memory.storeLine 20 body).runOn (Session.run 64 calls).memory
    (∀ call ∈ calls, call.IsTyped) ∧
      (TypedLine.ofText (ascii "20fori=1to3:printi") true).tokens = .number (.ofNat 20) :: body ∧
      LineNumber.ofSingle? (.ofNat 20) = some 20 ∧ stored.1 = .ok () ∧
      Listing.keepsApart true body = true ∧
      stored.2.program.listing stored.2.width 20 20 = [Listing.lineText 20 body] ∧
      (TypedLine.ofText (Listing.lineText 20 body) true).tokens = .number (.ofNat 20) :: body := by
  intro calls body stored
  have others : ∀ call ∈ calls, call.IsTyped := by
    have stop : (Token.word .end).IsTyped :=
      ⟨by decide, { text := ascii "END", fractions := false }, by decide +kernel⟩
    simp [calls, Call.IsTyped, stop]
  have typed : (TypedLine.ofText (ascii "20fori=1to3:printi") true).tokens =
      .number (.ofNat 20) :: body := by decide +kernel
  have numbered : LineNumber.ofSingle? (.ofNat 20) = some 20 := by decide +kernel
  have accepted : stored.1 = .ok () := by decide +kernel
  have apart : Listing.keepsApart true body = true := by decide +kernel
  have ran : stored = (.ok (), stored.2) := by
    rw [← accepted]
  have both := listed_line_reads_back others typed numbered (List.cons_ne_nil _ _) ran apart
  exact ⟨others, typed, numbered, accepted, apart, both⟩

/-- **Two numbers side by side are listed as one**: the line `10 DATA 1 2` is stored with the tokens
that were typed, and listed as `10 DATA 12`, which has others. -/
theorem listing_joins_numbers :
    let body : List Token := [.word .data, .number (.ofNat 1), .number (.ofNat 2)]
    let stored := (Memory.storeLine 10 body).runOn (Memory.ofSize 64)
    (TypedLine.ofText (ascii "10 DATA 1 2") true).tokens = .number (.ofNat 10) :: body ∧
      LineNumber.ofSingle? (.ofNat 10) = some 10 ∧ stored.1 = .ok () ∧
      stored.2.program.listing stored.2.width 10 10 = [ascii "10 DATA 12"] ∧
      (TypedLine.ofText (ascii "10 DATA 12") true).tokens ≠ .number (.ofNat 10) :: body := by
  decide +kernel

end Memory

end PocketBasic
