/-
**Where tokens begin.** Reading a text from its beginning comes to the places where its tokens
begin. Lines begin there as well, so neither reading on nor going to a line leaves these places.

* `ProgramText.IsBoundary`: a place that reading from the beginning comes to;
* `ProgramText.boundaries`: the ones inside of a text;
* **`ProgramText.isBoundary_of_findLine?`**: a line that is found begins with a token.
-/

import Mathlib.Data.List.Basic
import PocketBasic.Proofs.Program.Alignment

namespace PocketBasic.ProgramText

variable {text : ProgramText} {width : AddressWidth} {offset stop : Nat} {spans : List LineSpan}

/-- Whether reading a text from its beginning comes to a place. -/
def IsBoundary (text : ProgramText) (width : AddressWidth) (offset : Nat) : Prop :=
  ∃ count, text.placeAfter width count 0 = offset

theorem isBoundary_zero : text.IsBoundary width 0 := ⟨0, rfl⟩

theorem IsBoundary.placeAfter (boundary : text.IsBoundary width offset) (more : Nat) :
    text.IsBoundary width (text.placeAfter width more offset) := by
  obtain ⟨count, rfl⟩ := boundary
  exact ⟨count + more, placeAfter_add more count 0⟩

/-- **A token ends where the next one begins.** -/
theorem IsBoundary.next (boundary : text.IsBoundary width offset) :
    text.IsBoundary width (text.decode width offset).2 := boundary.placeAfter 1

/-! ### Lines -/

theorem SkipsTo.isBoundary (skips : text.SkipsTo width offset stop)
    (boundary : text.IsBoundary width (min offset text.length)) :
    text.IsBoundary width (min stop text.length) := by
  obtain ⟨count, reads, -⟩ := skips.readsTo
  rw [← reads]
  exact boundary.placeAfter count

theorem Enumerates.isBoundary (met : text.Enumerates width offset spans)
    (boundary : text.IsBoundary width (min offset text.length)) {span : LineSpan}
    (member : span ∈ spans) : text.IsBoundary width span.start := by
  induction met with
  | ends => cases member
  | @line _ start next rest skips inside leaves _ ih =>
    have begins := skips.isBoundary boundary
    rw [Nat.min_eq_left (Nat.le_of_lt inside)] at begins
    have goesOn := begins.next
    rw [decode_snd inside] at goesOn
    rcases List.mem_cons.mp member with rfl | later
    · exact begins
    · exact ih (leaves.isBoundary goesOn) later

/-- **A line that is found begins with a token.** -/
theorem isBoundary_of_findLine? {line : LineNumber}
    (found : text.findLine? width line = some offset) : text.IsBoundary width offset := by
  rw [findLine?, Option.map_eq_some_iff] at found
  obtain ⟨span, among, rfl⟩ := found
  refine (text.enumerates_lines width).isBoundary ?_ (List.mem_of_find?_eq_some among)
  rw [Nat.zero_min]
  exact isBoundary_zero

/-! ### All of them -/

/-- The places inside of a text where its tokens begin. -/
def boundaries (text : ProgramText) (width : AddressWidth) : List Nat :=
  (List.range text.length).map fun count => text.placeAfter width count 0

/-- Each token that ends inside of a text takes a byte of it at least. -/
theorem add_le_placeAfter {count : Nat}
    (inside : text.placeAfter width count offset < text.length) :
    offset + count ≤ text.placeAfter width count offset := by
  induction count generalizing offset with
  | zero => exact Nat.le_refl _
  | succ count ih =>
    have begun : offset < text.length :=
      Nat.lt_of_le_of_lt (le_placeAfter (count + 1) offset) inside
    have takes : offset < (text.decode width offset).2 := (lt_decode_snd begun).1
    have ahead := ih inside
    rw [placeAfter]
    omega

theorem mem_boundaries (boundary : text.IsBoundary width offset) (inside : offset < text.length) :
    offset ∈ text.boundaries width := by
  obtain ⟨count, rfl⟩ := boundary
  have few := add_le_placeAfter inside
  exact List.mem_map.mpr ⟨count, List.mem_range.mpr (by omega), rfl⟩

end PocketBasic.ProgramText
