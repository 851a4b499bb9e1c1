import Ribbon.Text.Numeral
import Ribbon.Toml.Reader

/-!
# Dates and times

Days of the Gregorian calendar, times of the day, and both together with or without a distance to
universal time.
-/

namespace Ribbon.Toml

open Text

structure Date where
  year : Nat
  month : Nat
  day : Nat
  deriving DecidableEq, Repr

structure Clock where
  hour : Nat
  minute : Nat
  second : Nat
  nanosecond : Nat
  deriving DecidableEq, Repr

inductive Offset
  | zulu
  | minutes (n : Int)
  deriving DecidableEq, Repr

inductive Moment
  | date (d : Date)
  | clock (c : Clock)
  | both (d : Date) (c : Clock) (offset : Option Offset)
  deriving DecidableEq, Repr

namespace Moment

/-! ## Writing -/

def padded (size n : Nat) : List Char :=
  let s := numeral n
  List.replicate (size - s.length) '0' ++ s

def dateShown (d : Date) : List Char :=
  padded 4 d.year ++ ['-'] ++ padded 2 d.month ++ ['-'] ++ padded 2 d.day

/-- A fraction of a second is shown without zeros at its end, and not at all if it is zero. -/
def clockShown (c : Clock) : List Char :=
  let fraction := ((padded 9 c.nanosecond).reverse.dropWhile (· == '0')).reverse
  padded 2 c.hour ++ [':'] ++ padded 2 c.minute ++ [':'] ++ padded 2 c.second ++
    if c.nanosecond = 0 then [] else '.' :: fraction

def offsetShown : Offset → List Char
  | .zulu => ['Z']
  | .minutes n =>
    (if n < 0 then '-' else '+') :: (padded 2 (n.natAbs / 60) ++ [':'] ++ padded 2 (n.natAbs % 60))

def shown : Moment → List Char
  | date d => dateShown d
  | clock c => clockShown c
  | both d c none => dateShown d ++ ['T'] ++ clockShown c
  | both d c (some o) => dateShown d ++ ['T'] ++ clockShown c ++ offsetShown o

/-! ## Reading -/

def number (size : Nat) : Reader Nat := do
  let digits ← Reader.times (Reader.one Char.isDigit) size
  return digits.foldl (fun n c => 10 * n + (c.toNat - 48)) 0

def within (size low high : Nat) : Reader Nat := do
  let n ← number size
  if low ≤ n ∧ n ≤ high then return n else failure

def isLeapYear (year : Nat) : Bool :=
  year % 4 == 0 && (year % 100 != 0 || year % 400 == 0)

def daysOfMonth (year month : Nat) : Nat :=
  if month = 2 then if isLeapYear year then 29 else 28
  else if month = 4 ∨ month = 6 ∨ month = 9 ∨ month = 11 then 30
  else 31

def readDate : Reader Date := do
  let year ← number 4
  Reader.word ['-']
  let month ← within 2 1 12
  Reader.word ['-']
  let day ← within 2 1 (daysOfMonth year month)
  return ⟨year, month, day⟩

/-- Digits after the point count down to the nanosecond; further ones are dropped. -/
def readFraction : Reader Nat := do
  Reader.word ['.']
  let first ← Reader.one Char.isDigit
  let more ← Reader.span Char.isDigit
  let digits := (first :: more ++ List.replicate 8 '0').take 9
  return digits.foldl (fun n c => 10 * n + (c.toNat - 48)) 0

/-- A minute may have a leap second. -/
def readClock : Reader Clock := do
  let hour ← within 2 0 23
  Reader.word [':']
  let minute ← within 2 0 59
  Reader.word [':']
  let second ← within 2 0 60
  let fraction ← Reader.optional readFraction
  return ⟨hour, minute, second, fraction.getD 0⟩

def readOffset : Reader Offset := do
  match ← Reader.one fun c => c == 'Z' || c == 'z' || c == '+' || c == '-' with
  | '+' => return .minutes (← distance)
  | '-' => return .minutes (-(← distance))
  | _ => return .zulu
where
  distance : Reader Int := do
    let hour ← within 2 0 23
    Reader.word [':']
    let minute ← within 2 0 59
    return 60 * hour + minute

/-- A date, a time, or a date and a time with `T` or a space between them. -/
def read : Reader Moment :=
  (do
    let d ← readDate
    let time ← Reader.optional do
      let _ ← Reader.one fun c => c == 'T' || c == 't' || c == ' '
      return (← readClock, ← Reader.optional readOffset)
    match time with
    | none => return .date d
    | some (c, o) => return .both d c o) <|>
  (clock <$> readClock)

def ofText? (s : List Char) : Option Moment :=
  read.all? s

end Moment

end Ribbon.Toml
