/-
**The walks over a text meet.** One walk looks for the numbers of lines and goes by the lengths of
tokens alone; another one reads tokens, and what is cut off is the end for it. Over any bytes they
stop at the same places: the byte that marks a line number in one walk is never inside of a token in
the other one.

* `ProgramText.SkipsTo`, `ProgramText.Enumerates`: the walk over lines, round by round;
* `ProgramText.ReadsOut`: reading the tokens of a line ends where the line ends;
* `LineSpan.Tile.eq_of_holds`: an offset is in one line only;
* `ProgramText.walks_agree`: lines, tokens and the line of an offset fit together, whatever the
  text.
-/

import PocketBasic.Proofs.Program.Records
import PocketBasic.Proofs.Program.Walking
import PocketBasic.Proofs.Token.Typed

namespace PocketBasic

/-! ### Spans in order -/

namespace LineSpan

/-- Whether an offset is in a span. -/
def Holds (span : LineSpan) (offset : Nat) : Prop := span.start ≤ offset ∧ offset < span.stop

namespace Tile

variable {first last offset : Nat} {spans : List LineSpan}

/-- A span begins no earlier than the range that it is a part of. -/
theorem le_start (tile : Tile first last spans)
    (proper : ∀ span ∈ spans, span.start < span.stop) {span : LineSpan} (member : span ∈ spans) :
    first ≤ span.start := by
  induction spans generalizing first with
  | nil => cases member
  | cons head rest ih =>
    obtain ⟨rfl, tile⟩ := tile
    rcases List.mem_cons.mp member with rfl | later
    · exact Nat.le_refl _
    · have behind := ih tile (fun span among => proper span (List.mem_cons_of_mem _ among)) later
      have wide := proper head List.mem_cons_self
      omega

/-- **An offset is in one span only.** -/
theorem eq_of_holds (tile : Tile first last spans)
    (proper : ∀ span ∈ spans, span.start < span.stop) {one other : LineSpan}
    (here : one ∈ spans) (there : other ∈ spans) (held : one.Holds offset)
    (alsoHeld : other.Holds offset) : one = other := by
  induction spans generalizing first with
  | nil => cases here
  | cons head rest ih =>
    obtain ⟨-, tile⟩ := tile
    have properRest : ∀ span ∈ rest, span.start < span.stop := fun span among =>
      proper span (List.mem_cons_of_mem _ among)
    have behind {span : LineSpan} (later : span ∈ rest) : head.stop ≤ span.start :=
      tile.le_start properRest later
    rcases List.mem_cons.mp here with rfl | oneLater
    · rcases List.mem_cons.mp there with rfl | otherLater
      · rfl
      · exact absurd (behind otherLater) (Nat.not_le.mpr (Nat.lt_of_le_of_lt alsoHeld.1 held.2))
    · rcases List.mem_cons.mp there with rfl | otherLater
      · exact absurd (behind oneLater) (Nat.not_le.mpr (Nat.lt_of_le_of_lt held.1 alsoHeld.2))
      · exact ih tile properRest oneLater otherLater

end Tile

end LineSpan

namespace ProgramText

variable {text : ProgramText} {width : AddressWidth} {offset stop : Nat}

/-! ### The walk over lines -/

/-- Going from token to token, by their lengths alone, up to the first line number or to the end. -/
inductive SkipsTo (text : ProgramText) (width : AddressWidth) : Nat → Nat → Prop
  | stops {offset : Nat} (done : text.length ≤ offset ∨ text.byteAt offset = Tag.lineNumber) :
      SkipsTo text width offset offset
  | passes {offset stop : Nat} (inside : offset < text.length)
      (other : text.byteAt offset ≠ Tag.lineNumber)
      (rest : SkipsTo text width (offset + text.extent width offset) stop) :
      SkipsTo text width offset stop

/-- The lines that are met from an offset on: a line number is looked for, and the line reaches to
the next one or to the end. -/
inductive Enumerates (text : ProgramText) (width : AddressWidth) : Nat → List LineSpan → Prop
  | ends {offset start : Nat} (skips : text.SkipsTo width offset start)
      (past : text.length ≤ start) : Enumerates text width offset []
  | line {offset start next : Nat} {rest : List LineSpan}
      (skips : text.SkipsTo width offset start) (inside : start < text.length)
      (leaves : text.SkipsTo width (start + text.extent width start) next)
      (others : Enumerates text width next rest) :
      Enumerates text width offset
        ({ number := UInt16.ofNat (text.addressAt width (start + 1)), start,
           stop := min next text.length } :: rest)

theorem skipsTo_lineStartWithin {fuel : Nat} (enough : text.length - offset ≤ fuel) :
    text.SkipsTo width offset (text.lineStartWithin width fuel offset) := by
  induction fuel generalizing offset with
  | zero => exact .stops (.inl (by omega))
  | succ fuel ih =>
    rw [lineStartWithin]
    split
    case isTrue done => exact .stops (by simpa using done)
    case isFalse more =>
      obtain ⟨inside, other⟩ : offset < text.length ∧ text.byteAt offset ≠ Tag.lineNumber := by
        simpa using more
      have moves := text.one_le_extent width offset
      exact .passes inside other (ih (by omega))

/-- The search for a line number is a walk to its end. -/
theorem skipsTo_lineStartFrom (offset : Nat) :
    text.SkipsTo width offset (text.lineStartFrom width offset) :=
  skipsTo_lineStartWithin (Nat.le_refl _)

/-- A walk goes forward. -/
theorem SkipsTo.le (skips : text.SkipsTo width offset stop) : offset ≤ stop := by
  induction skips with
  | stops => exact Nat.le_refl _
  | passes _ _ _ ih => exact Nat.le_trans (Nat.le_add_right _ _) ih

theorem enumerates_linesWithin {fuel : Nat} (enough : text.length - offset ≤ fuel) :
    text.Enumerates width offset (text.linesWithin width fuel offset) := by
  induction fuel generalizing offset with
  | zero => exact .ends (.stops (.inl (by omega))) (by omega)
  | succ fuel ih =>
    have skips : text.SkipsTo width offset _ := skipsTo_lineStartFrom offset
    rw [linesWithin]
    by_cases past : text.length ≤ text.lineStartFrom width offset
    · simp only [if_pos past]
      exact .ends skips past
    · have leaves : text.SkipsTo width (text.lineStartFrom width offset +
          text.extent width (text.lineStartFrom width offset)) _ := skipsTo_lineStartFrom _
      have moves := text.one_le_extent width (text.lineStartFrom width offset)
      have ahead := skips.le
      have further := leaves.le
      simp only [if_neg past]
      exact .line skips (Nat.not_le.mp past) leaves (ih (by omega))

/-- **The walk over the lines of a text ends by itself**: the bound on its rounds cuts nothing
off. -/
theorem enumerates_lines (text : ProgramText) (width : AddressWidth) :
    text.Enumerates width 0 (text.lines width) :=
  enumerates_linesWithin (Nat.le_refl _)

/-- A walk that stands at a line number or at the end stays there. -/
theorem SkipsTo.eq_of_done (skips : text.SkipsTo width offset stop)
    (done : text.length ≤ offset ∨ text.byteAt offset = Tag.lineNumber) : stop = offset := by
  cases skips with
  | stops => rfl
  | passes inside other => exact absurd done (not_or.mpr ⟨Nat.not_le.mpr inside, other⟩)

/-- A walk ends at a line number or at the end. -/
theorem SkipsTo.done (skips : text.SkipsTo width offset stop) :
    text.length ≤ stop ∨ text.byteAt stop = Tag.lineNumber := by
  induction skips with
  | stops done => exact done
  | passes _ _ _ ih => exact ih

/-- **Lines stand one behind the other, and the last one ends with the text.** -/
theorem Enumerates.tile {spans : List LineSpan} (met : text.Enumerates width offset spans) :
    ∃ start, text.SkipsTo width offset start ∧
      LineSpan.Tile (min start text.length) text.length spans := by
  induction met with
  | ends skips past => exact ⟨_, skips, Nat.min_eq_right past⟩
  | @line _ start next rest skips inside leaves _ ih =>
    obtain ⟨again, skipsOn, tile⟩ := ih
    -- the search for the line behind this one begins where the search for its end stopped
    rw [skipsOn.eq_of_done leaves.done] at tile
    exact ⟨start, skips, (Nat.min_eq_left (Nat.le_of_lt inside)).symm, tile⟩

/-! ### The walk over tokens -/

/-- Where the reading of a number of tokens ends. -/
def placeAfter (text : ProgramText) (width : AddressWidth) : Nat → Nat → Nat
  | 0, offset => offset
  | count + 1, offset => text.placeAfter width count (text.decode width offset).2

/-- Inside of the text a token takes its bytes, as far as they are there. -/
theorem decode_snd (inside : offset < text.length) :
    (text.decode width offset).2 = min (offset + text.extent width offset) text.length := by
  rw [decode, if_neg (Nat.not_le.mpr inside)]
  dsimp only
  split_ifs with cut
  · exact (Nat.min_eq_right (Nat.le_of_lt cut)).symm
  · exact (Nat.min_eq_left (Nat.not_lt.mp cut)).symm

/-- At the end there is nothing more to read. -/
theorem decode_of_length_le (past : text.length ≤ offset) :
    text.decode width offset = (.endOfText, offset) := if_pos past

/-- **Reading a token goes forward, and not past the end.** -/
theorem lt_decode_snd (inside : offset < text.length) :
    offset < (text.decode width offset).2 ∧ (text.decode width offset).2 ≤ text.length := by
  have moves := text.one_le_extent width offset
  rw [decode_snd inside]
  omega

/-- Where a line number stands it is read, when all of its bytes are there. -/
theorem decode_fst_of_mark (mark : text.byteAt offset = Tag.lineNumber)
    (complete : offset + 1 + width.byteCount ≤ text.length) :
    (text.decode width offset).1 =
      .lineNumber (UInt16.ofNat (text.addressAt width (offset + 1))) := by
  have extent : text.extent width offset = 1 + width.byteCount := by
    simp [ProgramText.extent, mark, Tag.lineNumber, Tag.number]
  have inside : ¬ text.length ≤ offset := by omega
  have whole : ¬ text.length < offset + (1 + width.byteCount) := by omega
  rw [decode, if_neg inside, extent]
  simp only [if_neg whole]
  simp [tokenBetween, mark, Tag.lineNumber, Tag.number]

/-- A place of the vocabulary that holds nothing reads as a character. -/
theorem isStorable_wordAt (place : Nat) : (wordAt place).IsStorable := by
  rw [wordAt]
  cases listed : vocabulary[place]? with
  | none => exact (by decide : Token.IsStorable (.symbol 63))
  | some token => exact Token.isStorable_of_mem_vocabulary (List.mem_of_getElem? listed)

/-- What begins with another byte than the one of a line number is part of a line. -/
theorem isStorable_tokenBetween (other : text.byteAt offset ≠ Tag.lineNumber) (next : Nat) :
    (text.tokenBetween width offset next).IsStorable := by
  rw [tokenBetween, if_neg other]
  split_ifs
  case pos | pos | pos | pos | pos => exact trivial
  case pos | pos => exact isStorable_wordAt _
  case neg => exact Token.isStorable_ofByte _

/-- **A line number is read only where the byte that marks one stands.** -/
theorem decode_fst_ne_lineNumber (other : text.byteAt offset ≠ Tag.lineNumber)
    (number : LineNumber) : (text.decode width offset).1 ≠ .lineNumber number := by
  rw [decode]
  dsimp only
  split_ifs
  case pos | pos => exact Token.noConfusion
  case neg =>
    intro read
    have storable := @isStorable_tokenBetween text width offset other
      (offset + text.extent width offset)
    rw [show text.tokenBetween width offset _ = .lineNumber number from read] at storable
    exact storable

/-! ### Both walks together -/

/-- Reading tokens from an offset meets a place, on the way to it no line number, and nothing is
read twice. -/
def ReadsTo (text : ProgramText) (width : AddressWidth) (offset stop : Nat) : Prop :=
  ∃ count, text.placeAfter width count offset = stop ∧
    ∀ place < count, text.placeAfter width place offset < stop ∧
      ∀ number, (text.decode width (text.placeAfter width place offset)).1 ≠ .lineNumber number

/-- **Going by the lengths of tokens and reading them stop at the same place**, which is the end of
the text when the last token is cut off. -/
theorem SkipsTo.readsTo (skips : text.SkipsTo width offset stop) :
    text.ReadsTo width (min offset text.length) (min stop text.length) := by
  induction skips with
  | stops => exact ⟨0, rfl, fun _ none => absurd none (Nat.not_lt_zero _)⟩
  | @passes offset stop inside other rest ih =>
    obtain ⟨count, meets, before⟩ := ih
    have here : min offset text.length = offset := Nat.min_eq_left (Nat.le_of_lt inside)
    have ahead : offset < min stop text.length := by
      have further := rest.le
      have moves := text.one_le_extent width offset
      omega
    rw [← decode_snd inside] at meets before
    rw [here]
    refine ⟨count + 1, meets, fun place early => ?_⟩
    cases place with
    | zero => exact ⟨ahead, decode_fst_ne_lineNumber other⟩
    | succ place => exact before place (Nat.lt_of_succ_lt_succ early)

/-- Reading a line from its start: first its number, when all of that is there, then tokens up to
the end of the line and exactly there. -/
structure ReadsOut (text : ProgramText) (width : AddressWidth) (span : LineSpan) : Prop where
  number : span.start + 1 + width.byteCount ≤ text.length →
    (text.decode width span.start).1 = .lineNumber span.number
  rest : text.ReadsTo width (text.decode width span.start).2 span.stop

/-- What a walk over lines meets is a line to the walk over tokens too. -/
theorem Enumerates.readsOut {spans : List LineSpan} (met : text.Enumerates width offset spans)
    {span : LineSpan} (member : span ∈ spans) : text.ReadsOut width span := by
  induction met with
  | ends => cases member
  | @line _ start next rest skips inside leaves _ ih =>
    rcases List.mem_cons.mp member with rfl | later
    · have mark := skips.done.resolve_left (Nat.not_le.mpr inside)
      refine ⟨decode_fst_of_mark mark, ?_⟩
      rw [decode_snd inside]
      exact leaves.readsTo
    · exact ih later

theorem placeAfter_add (more count offset : Nat) :
    text.placeAfter width (count + more) offset =
      text.placeAfter width more (text.placeAfter width count offset) := by
  induction count generalizing offset with
  | zero => rw [Nat.zero_add, placeAfter]
  | succ count ih => rw [Nat.add_right_comm, placeAfter, placeAfter, ih]

/-- Reading never goes back. -/
theorem le_placeAfter (count offset : Nat) : offset ≤ text.placeAfter width count offset := by
  induction count generalizing offset with
  | zero => exact Nat.le_refl _
  | succ count ih =>
    refine Nat.le_trans ?_ (ih _)
    rcases Nat.lt_or_ge offset text.length with inside | past
    · exact Nat.le_of_lt (lt_decode_snd inside).1
    · exact Nat.le_of_eq (congrArg Prod.snd (decode_of_length_le past)).symm

/-- The tokens of a range are read on the way to its end. -/
theorem exists_of_mem_tokensWithin {fuel : Nat} {token : Token}
    (member : token ∈ text.tokensWithin width stop fuel offset) :
    ∃ count, text.placeAfter width count offset < stop ∧
      (text.decode width (text.placeAfter width count offset)).1 = token := by
  induction fuel generalizing offset with
  | zero => cases member
  | succ fuel ih =>
    rw [tokensWithin] at member
    split at member
    case isTrue => cases member
    case isFalse more =>
      split at member
      case h_1 => cases member
      case h_2 first next _ read =>
        rcases List.mem_cons.mp member with rfl | later
        · exact ⟨0, Nat.not_le.mp more, congrArg Prod.fst read⟩
        · obtain ⟨count, early, same⟩ := ih later
          refine ⟨count + 1, ?_⟩
          rw [placeAfter, read]
          exact ⟨early, same⟩

/-- **A listed line holds the number of no other line.** -/
theorem ReadsOut.ne_lineNumber {span : LineSpan} (reads : text.ReadsOut width span) {token : Token}
    (member : token ∈ text.lineTokens width span) (number : LineNumber) :
    token ≠ .lineNumber number := by
  obtain ⟨count, early, rfl⟩ := exists_of_mem_tokensWithin member
  obtain ⟨whole, meets, before⟩ := reads.rest
  refine (before count (Nat.not_le.mp fun past => ?_)).2 number
  obtain ⟨more, rfl⟩ := Nat.exists_eq_add_of_le past
  rw [placeAfter_add, meets] at early
  exact absurd early (Nat.not_lt.mpr (le_placeAfter more span.stop))

/-- The line of an offset is the one line that holds it. -/
theorem lineOf?_eq_some_iff {number : LineNumber} :
    text.lineOf? width offset = some number ↔
      ∃ span ∈ text.lines width, span.Holds offset ∧ span.number = number := by
  obtain ⟨first, -, tile⟩ := (text.enumerates_lines width).tile
  have proper : ∀ span ∈ text.lines width, span.start < span.stop := fun span member =>
    (bounds_of_mem_lines member).1
  let holds : LineSpan → Bool := fun span => span.start ≤ offset && offset < span.stop
  have holds_iff (span : LineSpan) : holds span = true ↔ span.Holds offset := by
    simp [holds, LineSpan.Holds]
  rw [lineOf?, Option.map_eq_some_iff]
  change (∃ span, (text.lines width).find? holds = some span ∧ _) ↔ _
  constructor
  · rintro ⟨span, found, same⟩
    exact ⟨span, List.mem_of_find?_eq_some found, (holds_iff span).mp (List.find?_some found), same⟩
  · rintro ⟨span, member, held, same⟩
    have some := List.find?_isSome.mpr ⟨span, member, (holds_iff span).mpr held⟩
    obtain ⟨other, found⟩ := Option.isSome_iff_exists.mp some
    have alsoHeld := (holds_iff other).mp (List.find?_some found)
    rw [tile.eq_of_holds proper member (List.mem_of_find?_eq_some found) held alsoHeld] at same
    exact ⟨other, found, same⟩

/-- **The walks over any text agree.** The walk over lines ends by itself; its lines have bytes,
stand one behind the other from the first line number to the end of the text, and reading tokens
from the start of one gives its number, no other number, and ends where it ends; the line of an
offset is the one that holds it; and reading a token goes forward until the text is over. -/
theorem walks_agree (text : ProgramText) (width : AddressWidth) :
    text.Enumerates width 0 (text.lines width) ∧
      (∃ first, text.SkipsTo width 0 first ∧
        LineSpan.Tile (min first text.length) text.length (text.lines width)) ∧
      (∀ span ∈ text.lines width, span.start < span.stop ∧ span.stop ≤ text.length ∧
        text.ReadsOut width span ∧
        ∀ token ∈ text.lineTokens width span, ∀ number, token ≠ .lineNumber number) ∧
      (∀ offset number, text.lineOf? width offset = some number ↔
        ∃ span ∈ text.lines width, span.Holds offset ∧ span.number = number) ∧
      (∀ offset < text.length, offset < (text.decode width offset).2 ∧
        (text.decode width offset).2 ≤ text.length) ∧
      ∀ offset, text.length ≤ offset → text.decode width offset = (.endOfText, offset) := by
  have met := text.enumerates_lines width
  refine ⟨met, met.tile, fun span member => ?_, fun _ _ => lineOf?_eq_some_iff,
    fun _ inside => lt_decode_snd inside, fun _ past => decode_of_length_le past⟩
  have bounds := bounds_of_mem_lines member
  have reads := met.readsOut member
  exact ⟨bounds.1, bounds.2, reads, fun _ among => reads.ne_lineNumber among⟩

end ProgramText

end PocketBasic
