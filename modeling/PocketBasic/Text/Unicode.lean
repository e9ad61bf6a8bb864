/-
**Unicode text in bytes.** Bytes from outside (files, streams, string literals) need not be well
formed, so they are read scalar by scalar, and every maximal malformed piece counts as one.

* `Unicode.scalars`: the scalars of a byte string, with `none` for each malformed piece.
* `Unicode.lossy`: the same with U+FFFD in place of the malformed pieces; `Unicode.strict?`: the
  scalars if there is no such piece.
* `Unicode.trim`: a text without the white space at its two ends.
* `Unicode.lines`: the lines of a byte string.
-/

import PocketBasic.Text.Bytes

namespace PocketBasic.Unicode

/-! ### Scalars of a byte string -/

/-- Whether `byte` continues a scalar that was begun before. -/
def isContinuation (byte : UInt8) : Bool := 0x80 ≤ byte && byte ≤ 0xBF

/-- The range of the second byte of a scalar that begins with `lead`: overlong forms, surrogates
and values above U+10FFFF are cut off here. -/
def secondRange (lead : UInt8) : UInt8 × UInt8 :=
  if lead = 0xE0 then (0xA0, 0xBF)
  else if lead = 0xED then (0x80, 0x9F)
  else if lead = 0xF0 then (0x90, 0xBF)
  else if lead = 0xF4 then (0x80, 0x8F)
  else (0x80, 0xBF)

/-- How many bytes follow `lead` in a scalar, `none` when no scalar begins with it. -/
def following? (lead : UInt8) : Option Nat :=
  if lead < 0x80 then some 0
  else if 0xC2 ≤ lead && lead ≤ 0xDF then some 1
  else if 0xE0 ≤ lead && lead ≤ 0xEF then some 2
  else if 0xF0 ≤ lead && lead ≤ 0xF4 then some 3
  else none

/-- Takes `count` continuation bytes into `value`, six bits each. The value is `none` when they are
not all there; the bytes that are there are taken in either case. -/
def continued : Nat → Nat → Bytes → Option Nat × Bytes
  | 0, value, rest => (some value, rest)
  | _ + 1, _, [] => (none, [])
  | count + 1, value, byte :: rest =>
    if isContinuation byte then continued count (value * 64 + (byte.toNat - 0x80)) rest
    else (none, byte :: rest)

/-- The scalar, or the malformed piece, that begins with `lead`, and what follows it. -/
def scalarAfter (lead : UInt8) (rest : Bytes) : Option Char × Bytes :=
  match following? lead, rest with
  | none, _ => (none, rest)
  | some 0, _ => (some (Char.ofNat lead.toNat), rest)
  | some (_ + 1), [] => (none, [])
  | some (count + 1), second :: tail =>
    if (secondRange lead).1 ≤ second && second ≤ (secondRange lead).2 then
      let first := lead.toNat % Nat.pow 2 (5 - count)
      let taken := continued count (first * 64 + (second.toNat - 0x80)) tail
      (taken.1.map Char.ofNat, taken.2)
    else (none, second :: tail)

theorem continued_length (count value : Nat) (rest : Bytes) :
    (continued count value rest).2.length ≤ rest.length := by
  fun_induction continued count value rest with
  | case1 => exact Nat.le_refl _
  | case2 => exact Nat.le_refl _
  | case3 _ _ _ _ _ ih => exact Nat.le_succ_of_le ih
  | case4 => exact Nat.le_refl _

theorem scalarAfter_length (lead : UInt8) (rest : Bytes) :
    (scalarAfter lead rest).2.length ≤ rest.length := by
  fun_cases scalarAfter lead rest with
  | case4 count second tail =>
    exact Nat.le_succ_of_le (continued_length _ _ _)
  | _ => exact Nat.le_refl _

/-- The scalars of a byte string in order; each maximal malformed piece is one `none`. -/
def scalars : Bytes → List (Option Char)
  | [] => []
  | lead :: rest => (scalarAfter lead rest).1 :: scalars (scalarAfter lead rest).2
termination_by bytes => bytes.length
decreasing_by exact Nat.lt_succ_of_le (scalarAfter_length lead rest)

/-- The text of a byte string, U+FFFD standing for each malformed piece. -/
def lossy (bytes : Bytes) : List Char := (scalars bytes).map (·.getD '\uFFFD')

/-- The text of a byte string that has no malformed piece. -/
def strict? (bytes : Bytes) : Option (List Char) := (scalars bytes).mapM id

/-- The bytes of a text. -/
def encode (text : List Char) : Bytes := text.flatMap String.utf8EncodeChar

/-- A byte string with each malformed piece replaced by the three bytes of U+FFFD. -/
def repaired (bytes : Bytes) : Bytes := encode (lossy bytes)

/-! ### White space -/

/-- The scalars with the Unicode property `White_Space`. -/
def isWhiteSpace (c : Char) : Bool :=
  let value := c.toNat
  (0x09 ≤ value && value ≤ 0x0D) || value == 0x20 || value == 0x85 || value == 0xA0 ||
  value == 0x1680 || (0x2000 ≤ value && value ≤ 0x200A) || value == 0x2028 || value == 0x2029 ||
  value == 0x202F || value == 0x205F || value == 0x3000

/-- A text without the white space at its two ends. -/
def trim (text : List Char) : List Char :=
  ((text.dropWhile isWhiteSpace).reverse.dropWhile isWhiteSpace).reverse

/-! ### Lines -/

/-- The first line of a byte string, up to a newline or the end, and what follows the newline. -/
def cutLine : Bytes → Bytes × Bytes
  | [] => ([], [])
  | byte :: rest =>
    if byte = 10 then ([], rest)
    else (byte :: (cutLine rest).1, (cutLine rest).2)

theorem cutLine_length (bytes : Bytes) : (cutLine bytes).2.length ≤ bytes.length := by
  induction bytes with
  | nil => exact Nat.le_refl _
  | cons byte rest ih =>
    unfold cutLine
    split
    · exact Nat.le_succ _
    · exact Nat.le_succ_of_le ih

/-- The lines of a byte string. A newline ends a line and begins none. -/
def lines : Bytes → List Bytes
  | [] => []
  | byte :: rest =>
    (cutLine (byte :: rest)).1 :: lines (cutLine (byte :: rest)).2
termination_by bytes => bytes.length
decreasing_by
  unfold cutLine
  split
  · exact Nat.lt_succ_self _
  · exact Nat.lt_succ_of_le (cutLine_length rest)

end PocketBasic.Unicode
