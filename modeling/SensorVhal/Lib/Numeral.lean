import Mathlib.Tactic.Common

namespace Numeral

def isspace (c : UInt8) : Bool := c = 32 ∨ 9 ≤ c ∧ c ≤ 13

def isdigit (c : UInt8) : Bool := 48 ≤ c ∧ c ≤ 57

-- The number that decimal digits spell.
def value (digits : List UInt8) : Nat :=
  digits.foldl (fun number c => 10 * number + (c.toNat - 48)) 0

-- How wide a long is.
inductive Long
  | bits32
  | bits64

def LONG_MAX : Long → Int
  | .bits32 => 2147483647
  | .bits64 => 9223372036854775807

def LONG_MIN (long : Long) : Int := -LONG_MAX long - 1

-- strtol in base 10: blanks and a sign are passed over, a string without digits is 0, and
-- a number that is no long is cut to the nearest.
def strtol (long : Long) (str : List UInt8) : Int :=
  match str.dropWhile isspace with
  | 45 :: rest => max (LONG_MIN long) (-(value (rest.takeWhile isdigit)))
  | 43 :: rest => min (LONG_MAX long) (value (rest.takeWhile isdigit))
  | rest => min (LONG_MAX long) (value (rest.takeWhile isdigit))

-- (int)strtol(str, NULL, 10)
def atoi (long : Long) (str : List UInt8) : Int := (BitVec.ofInt 32 (strtol long str)).toInt

theorem atoi_eq_zero {long : Long} {str : List UInt8} :
    atoi long str = 0 ↔ (4294967296 : Int) ∣ strtol long str := by
  rw [atoi, BitVec.toInt_ofInt]
  exact Int.dvd_iff_bmod_eq_zero.symm

-- " -42ms"
example : atoi .bits64 [32, 45, 52, 50, 109, 115] = -42 := by decide

end Numeral
