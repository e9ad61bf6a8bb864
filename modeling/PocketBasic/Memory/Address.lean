/-
**Addresses and lengths are words of 64 bits.** Their sums, products and differences wrap around.
Inside memory nothing ever wraps; a length in memory that was overwritten can lead outside, and
from there a word may also come back.

* `Address.wrap`: the word of a sum or product; `Address.minus`: the difference of two words;
* `Address.wrap_of_lt`, `Address.minus_of_le`: without overflow both are plain arithmetic.
-/

namespace PocketBasic.Address

/-- How many words there are. -/
def modulus : Nat := UInt64.size

/-- A whole number as a word: what does not fit is cut off at the top. -/
def wrap (value : Nat) : Nat := value % modulus

/-- What is left of a word when another one is taken away, around zero if need be. -/
def minus (whole part : Nat) : Nat := wrap (whole + (modulus - wrap part))

theorem wrap_of_lt {value : Nat} (fits : value < modulus) : wrap value = value :=
  Nat.mod_eq_of_lt fits

theorem minus_of_le {whole part : Nat} (ordered : part ≤ whole) (fits : whole < modulus) :
    minus whole part = whole - part := by
  have shifted : whole + (modulus - part) = whole - part + modulus := by omega
  rw [minus, wrap_of_lt (Nat.lt_of_le_of_lt ordered fits), shifted, wrap, Nat.add_mod_right]
  exact Nat.mod_eq_of_lt (Nat.lt_of_le_of_lt (Nat.sub_le whole part) fits)

end PocketBasic.Address
