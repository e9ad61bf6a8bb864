/-
**Classes of bytes.** There are 256 bytes, so what holds of all of them can be tried out, and a text
is cut where the bytes of one class end.

* `Byte.decidableForall`: a property of bytes that can be tested can be tested on all bytes;
* `takeWhile_run`, `dropWhile_run`: a run of bytes of one class, where it ends.
-/

import Mathlib.Data.List.Basic
import Mathlib.Tactic.Common
import PocketBasic.Text.Bytes

namespace PocketBasic

/-- A property that holds of all bytes can be found to do so. -/
instance Byte.decidableForall (p : UInt8 → Prop) [DecidablePred p] : Decidable (∀ byte, p byte) :=
  decidable_of_iff (∀ value : Fin 256, p (UInt8.ofFin value))
    ⟨fun all byte => all byte.toFin, fun all value => all (UInt8.ofFin value)⟩

/-! ### Runs -/

/-- A run of bytes of one class, where it ends. -/
theorem takeWhile_run {keep : UInt8 → Bool} {run rest : Bytes}
    (all : ∀ byte ∈ run, keep byte = true) (stops : rest.head?.any keep = false) :
    (run ++ rest).takeWhile keep = run := by
  rw [List.takeWhile_append_of_pos all]
  cases rest with
  | nil => simp
  | cons byte rest => rw [List.takeWhile_cons_of_neg (by simpa using stops), List.append_nil]

theorem dropWhile_run {keep : UInt8 → Bool} {run rest : Bytes}
    (all : ∀ byte ∈ run, keep byte = true) (stops : rest.head?.any keep = false) :
    (run ++ rest).dropWhile keep = rest := by
  rw [List.dropWhile_append_of_pos all]
  cases rest with
  | nil => rfl
  | cons byte rest => exact List.dropWhile_cons_of_neg (by simpa using stops)

end PocketBasic
