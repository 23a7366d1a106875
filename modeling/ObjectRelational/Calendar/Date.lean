import ObjectRelational.Text.Digit

/-!
# Calendar dates

Dates of the proleptic Gregorian calendar, in the years from -262143 to 262142.
-/

namespace ObjectRelational

set_option autoImplicit false

namespace Calendar

def isLeapYear (year : Int) : Bool :=
  year % 4 = 0 && (year % 100 ≠ 0 || year % 400 = 0)

def daysInMonth (year : Int) (month : Nat) : Nat :=
  match month with
  | 1 | 3 | 5 | 7 | 8 | 10 | 12 => 31
  | 4 | 6 | 9 | 11 => 30
  | 2 => if isLeapYear year then 29 else 28
  | _ => 0

def leastYear : Int := -262143

def greatestYear : Int := 262142

end Calendar

/-- A date of the Gregorian calendar. A month that does not exist has no days. -/
structure Date where
  year : Int
  month : Nat
  day : Nat
  year_ge : Calendar.leastYear ≤ year
  year_le : year ≤ Calendar.greatestYear
  day_pos : 1 ≤ day
  day_le : day ≤ Calendar.daysInMonth year month
  deriving DecidableEq

namespace Date

open Calendar

/-- The date of a year, month and day, if there is one. -/
def ofYmd? (year : Int) (month day : Nat) : Option Date :=
  if hyear : leastYear ≤ year ∧ year ≤ greatestYear then
    if hday : 1 ≤ day ∧ day ≤ daysInMonth year month then
      some ⟨year, month, day, hyear.1, hyear.2, hday.1, hday.2⟩
    else none
  else none

@[simp]
theorem ofYmd?_self (d : Date) : ofYmd? d.year d.month d.day = some d := by
  simp [ofYmd?, d.year_ge, d.year_le, d.day_pos, d.day_le]

/-- The following day, unless it lies beyond the calendar. -/
def next? (d : Date) : Option Date :=
  if d.day < daysInMonth d.year d.month then ofYmd? d.year d.month (d.day + 1)
  else if d.month < 12 then ofYmd? d.year (d.month + 1) 1
  else ofYmd? (d.year + 1) 1 1

/-- The preceding day, unless it lies before the calendar. -/
def previous? (d : Date) : Option Date :=
  if 1 < d.day then ofYmd? d.year d.month (d.day - 1)
  else if 1 < d.month then ofYmd? d.year (d.month - 1) (daysInMonth d.year (d.month - 1))
  else ofYmd? (d.year - 1) 12 31

/-- A year in four digits; outside 0 to 9999 it has a sign. -/
def yearChars (year : Int) : List Char :=
  let digits := Text.paddedDigits 4 year.natAbs
  if year < 0 then '-' :: digits
  else if 9999 < year then '+' :: digits
  else digits

def chars (d : Date) : List Char :=
  yearChars d.year ++ '-' :: Text.paddedDigits 2 d.month ++ '-' :: Text.paddedDigits 2 d.day

def text (d : Date) : String :=
  String.ofList d.chars

end Date

end ObjectRelational
