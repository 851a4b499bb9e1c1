/-!
# Binary fractions of 64 bits

The numbers of the binary64 format as whole multiples of powers of two, and the one that is nearest
to a decimal fraction. Main statement: rounding is off by half a unit at most.
-/

namespace Ribbon.Decimal

def tenTo (n : Nat) : Nat :=
  Nat.pow 10 n

/-- A quotient rounded to a whole number. A half goes to the even neighbour. -/
def roundHalfEven (num den : Nat) : Nat :=
  let q := num / den
  let r := num % den
  if 2 * r < den then q
  else if den < 2 * r then q + 1
  else q + q % 2

theorem roundHalfEven_near {num den : Nat} (h : 0 < den) :
    2 * (den * roundHalfEven num den) ≤ 2 * num + den ∧
      2 * num ≤ 2 * (den * roundHalfEven num den) + den := by
  have e : den * (num / den) + num % den = num := Nat.div_add_mod num den
  have l : num % den < den := Nat.mod_lt _ h
  simp only [roundHalfEven]
  split
  · omega
  · split
    · rw [Nat.mul_add]
      omega
    · rw [Nat.mul_add]
      rcases Nat.mod_two_eq_zero_or_one (num / den) with h | h <;> rw [h] <;> omega

/-- A number of the format. A finite one is its significand times a power of two. -/
inductive Binary64
  | nan
  | infinite (negative : Bool)
  | finite (negative : Bool) (significand : Nat) (exponent : Int)
  deriving DecidableEq, Repr

namespace Binary64

def significandEnd : Nat := 0x20000000000000

def leastExponent : Int := -1074
def greatestExponent : Int := 971

def zero (negative : Bool) : Binary64 :=
  finite negative 0 leastExponent

def scaled (num den : Nat) (exponent : Int) : Nat × Nat :=
  (num <<< (-exponent).toNat, den <<< exponent.toNat)

/-- The number nearest to a positive quotient. What is beyond the greatest one is infinite. -/
def nearest (negative : Bool) (num den : Nat) : Binary64 :=
  let low := max ((num.log2 : Int) - den.log2 - 53) leastExponent
  let (n, d) := scaled num den low
  let exponent := if n / d < significandEnd then low else low + 1
  let (n, d) := scaled num den exponent
  let significand := roundHalfEven n d
  let (significand, exponent) :=
    if significand < significandEnd then (significand, exponent)
    else (significand / 2, exponent + 1)
  if exponent ≤ greatestExponent then finite negative significand exponent else infinite negative

/-- The number nearest to `digits * 10 ^ scale`. Numbers of an extreme size are told by their
count of digits, before any power is formed. -/
def ofDecimal (negative : Bool) (digits : Nat) (scale : Int) : Binary64 :=
  if digits = 0 then zero negative
  else
    let size := (Nat.toDigits 10 digits).length + scale
    if 310 < size then infinite negative
    else if size < -325 then zero negative
    else nearest negative (digits * tenTo scale.toNat) (tenTo (-scale).toNat)

end Binary64

end Ribbon.Decimal
