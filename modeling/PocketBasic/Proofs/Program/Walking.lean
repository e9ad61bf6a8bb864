/-
**Walking over any bytes.** A text need not be a program: it may be cut off or hold nonsense. The
walks go forward all the same and stay inside.

* `ProgramText.le_lineStartFrom`: a line begins no earlier than the search for it;
* `ProgramText.bounds_of_mem_lines`: a line has bytes, and all of them are in the text.
-/

import Mathlib.Data.List.Basic
import Mathlib.Tactic.Common
import PocketBasic.Program.Lines

namespace PocketBasic.ProgramText

/-- Every byte begins something that takes a byte. -/
theorem one_le_extent (text : ProgramText) (width : AddressWidth) (offset : Nat) :
    1 ≤ text.extent width offset := by
  simp only [extent]
  split_ifs <;> omega

variable {text : ProgramText} {width : AddressWidth}

theorem le_lineStartWithin (fuel offset : Nat) :
    offset ≤ text.lineStartWithin width fuel offset := by
  induction fuel generalizing offset with
  | zero => exact Nat.le_refl offset
  | succ fuel ih =>
    rw [lineStartWithin]
    split
    · exact Nat.le_refl offset
    · exact Nat.le_trans (Nat.le_add_right _ _) (ih _)

theorem le_lineStartFrom (offset : Nat) : offset ≤ text.lineStartFrom width offset :=
  le_lineStartWithin _ _

theorem bounds_of_mem_linesWithin {fuel offset : Nat} {span : LineSpan}
    (member : span ∈ text.linesWithin width fuel offset) :
    offset ≤ span.start ∧ span.start < span.stop ∧ span.stop ≤ text.length := by
  induction fuel generalizing offset with
  | zero => cases member
  | succ fuel ih =>
    rw [linesWithin] at member
    set start := text.lineStartFrom width offset
    have starts : offset ≤ start := le_lineStartFrom offset
    by_cases ends : text.length ≤ start
    · rw [if_pos ends] at member
      cases member
    · rw [if_neg ends] at member
      have moves := text.one_le_extent width start
      have next : start + text.extent width start ≤ _ :=
        @le_lineStartFrom text width _
      rcases List.mem_cons.mp member with rfl | later
      · exact ⟨starts, by simp only; omega, Nat.min_le_right _ _⟩
      · have bounds := ih later
        omega

/-- **A line has bytes, and all of them are in the text.** -/
theorem bounds_of_mem_lines {span : LineSpan} (member : span ∈ text.lines width) :
    span.start < span.stop ∧ span.stop ≤ text.length :=
  (bounds_of_mem_linesWithin member).2

end PocketBasic.ProgramText
