import Ribbon.Decimal.Binary64

/-!
# Shortest decimals

A binary fraction is written with the fewest digits that are read back as the same number, and
without an exponent. Of two such decimals the nearer one is taken, of two equally near the greater.
-/

namespace Ribbon.Decimal

/-- The decimals that are read back as `significand * 2 ^ exponent`, in quarters of its last binary
digit. The bounds are in if the significand is even. -/
structure Interval where
  low : Nat
  value : Nat
  high : Nat
  closed : Bool
  exponent : Int

namespace Interval

/-- Below a power of two the numbers are twice as close as above it. -/
def of (significand : Nat) (exponent : Int) : Interval where
  low :=
    let narrow := 2 * significand = Binary64.significandEnd ∧ Binary64.leastExponent < exponent
    4 * significand - if narrow then 1 else 2
  value := 4 * significand
  high := 4 * significand + 2
  closed := significand % 2 == 0
  exponent := exponent - 2

/-- A quarter and `10 ^ place`, in a unit of which both are whole multiples. -/
def units (i : Interval) (place : Int) : Nat × Nat :=
  (tenTo (-place).toNat <<< i.exponent.toNat, tenTo place.toNat <<< (-i.exponent).toNat)

/-- Whether `digits * 10 ^ place` is in the interval. -/
def contains (i : Interval) (digits : Nat) (place : Int) : Bool :=
  let (quarter, unit) := i.units place
  let x := digits * unit
  if i.closed then i.low * quarter ≤ x && x ≤ i.high * quarter
  else i.low * quarter < x && x < i.high * quarter

/-- The decimal in the interval that ends at a place and is nearest to the value: one of the two
next to it. -/
def nearest? (i : Interval) (place : Int) : Option Nat :=
  let (quarter, unit) := i.units place
  let below := i.value * quarter / unit
  let above := below + 1
  let rest := i.value * quarter % unit
  match i.contains below place, i.contains above place with
  | true, true => some (if 2 * rest < unit then below else above)
  | true, false => some below
  | false, true => some above
  | false, false => none

/-- The place of the first digit of the value, which is not zero: it is below `10 ^ place` and at
least a tenth of that. -/
def firstPlace (i : Interval) : Int :=
  let (quarter, unit) := i.units (-330)
  (Nat.toDigits 10 (i.value * quarter / unit)).length - 330

/-- The shortest decimal of the interval: its digits and the place of the last one. Seventeen digits
are always enough. -/
def shortest (i : Interval) : Nat × Int :=
  let first := i.firstPlace
  let found := (List.range 17).findSome? fun (k : Nat) =>
    let place := first - 1 - k
    (i.nearest? place).map fun digits => (digits, place)
  found.getD (0, 0)

end Interval

/-- A decimal with a point in it: zeros fill up to the point, and one digit at least follows it. -/
def positional (digits : Nat) (place : Int) : List Char :=
  let s := Nat.toDigits 10 digits
  if 0 ≤ place then s ++ List.replicate place.toNat '0' ++ ['.', '0']
  else
    let count := (-place).toNat
    let s := List.replicate (count + 1 - s.length) '0' ++ s
    let fraction := ((s.drop (s.length - count)).reverse.dropWhile (· == '0')).reverse
    s.take (s.length - count) ++ ['.'] ++ if fraction.isEmpty then ['0'] else fraction

def Binary64.shown : Binary64 → List Char
  | nan => ['n', 'a', 'n']
  | infinite negative => (if negative then ['-'] else []) ++ ['i', 'n', 'f']
  | finite negative significand exponent =>
    let (digits, place) :=
      if significand = 0 then (0, 0) else (Interval.of significand exponent).shortest
    (if negative then ['-'] else []) ++ positional digits place

end Ribbon.Decimal
