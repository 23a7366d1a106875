import ObjectRelational.Calendar.Time

/-!
# Timestamps and instants

A timestamp is a date with a time of day; an instant is a timestamp of the zone UTC.
-/

namespace ObjectRelational

set_option autoImplicit false

structure Timestamp where
  date : Date
  time : TimeOfDay
  deriving DecidableEq

namespace Timestamp

/-- A timestamp with a mark between date and time. -/
def charsWith (separator : Char) (t : Timestamp) : List Char :=
  t.date.chars ++ separator :: t.time.chars

def text (t : Timestamp) : String :=
  String.ofList (charsWith ' ' t)

/-- The timestamp a number of minutes earlier, less than a day either way; a leap second stays
one. -/
def earlier? (t : Timestamp) (minutes : Int) : Option Timestamp := do
  let total : Int := t.time.hour * 60 + t.time.minute - minutes
  let date ←
    if total < 0 then t.date.previous?
    else if total < 1440 then some t.date
    else t.date.next?
  let minuteOfDay := (total % 1440).toNat
  let time ← TimeOfDay.ofHms? (minuteOfDay / 60) (minuteOfDay % 60) t.time.second t.time.nano
  return ⟨date, time⟩

end Timestamp

/-- A point in time, held as the timestamp UTC shows. -/
structure Instant where
  utc : Timestamp
  deriving DecidableEq

namespace Instant

/-- The instant at which the clock of a zone, a number of minutes east of UTC, shows a
timestamp. -/
def ofLocal? (t : Timestamp) (eastMinutes : Int) : Option Instant :=
  (t.earlier? eastMinutes).map Instant.mk

def chars (i : Instant) : List Char :=
  i.utc.charsWith 'T' ++ "+00:00".toList

def text (i : Instant) : String :=
  String.ofList i.chars

end Instant

end ObjectRelational
