import ObjectRelational.Calendar.Date

/-!
# Times of day

Times with nanoseconds. A nanosecond count of a billion or more, which only the last second of a
minute can have, places the time in the leap second that follows it.
-/

namespace ObjectRelational

set_option autoImplicit false

namespace Calendar

def nanosPerSecond : Nat := 1000000000

end Calendar

structure TimeOfDay where
  hour : Nat
  minute : Nat
  second : Nat
  nano : Nat
  hour_lt : hour < 24
  minute_lt : minute < 60
  second_lt : second < 60
  nano_lt : nano < if second = 59 then 2 * Calendar.nanosPerSecond else Calendar.nanosPerSecond
  deriving DecidableEq

namespace TimeOfDay

open Calendar

def ofHms? (hour minute second nano : Nat) : Option TimeOfDay :=
  if hhour : hour < 24 then
    if hminute : minute < 60 then
      if hsecond : second < 60 then
        if hnano : nano < if second = 59 then 2 * nanosPerSecond else nanosPerSecond then
          some ⟨hour, minute, second, nano, hhour, hminute, hsecond, hnano⟩
        else none
      else none
    else none
  else none

@[simp]
theorem ofHms?_self (t : TimeOfDay) : ofHms? t.hour t.minute t.second t.nano = some t := by
  simp [ofHms?, t.hour_lt, t.minute_lt, t.second_lt, t.nano_lt]

/-- The time of a clock reading; second 60 is the leap second. -/
def ofClock? (hour minute second fraction : Nat) : Option TimeOfDay :=
  if second = 60 then ofHms? hour minute 59 (nanosPerSecond + fraction)
  else ofHms? hour minute second fraction

/-- The second a clock shows, 60 in a leap second. -/
def clockSecond (t : TimeOfDay) : Nat :=
  t.second + t.nano / nanosPerSecond

/-- Nothing for a whole second, else a point and the fewest of 3, 6 or 9 digits. -/
def fractionChars (t : TimeOfDay) : List Char :=
  let fraction := t.nano % nanosPerSecond
  if fraction = 0 then []
  else if fraction % 1000000 = 0 then '.' :: Text.paddedDigits 3 (fraction / 1000000)
  else if fraction % 1000 = 0 then '.' :: Text.paddedDigits 6 (fraction / 1000)
  else '.' :: Text.paddedDigits 9 fraction

def chars (t : TimeOfDay) : List Char :=
  Text.paddedDigits 2 t.hour ++ ':' :: Text.paddedDigits 2 t.minute
    ++ ':' :: Text.paddedDigits 2 t.clockSecond ++ t.fractionChars

def text (t : TimeOfDay) : String :=
  String.ofList t.chars

end TimeOfDay

end ObjectRelational
