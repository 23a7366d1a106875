import ObjectRelational.Calendar.Timestamp
import ObjectRelational.Text.Blank

/-!
# Dates and times in text

Readers of dates, times, timestamps and instants. White space is allowed before every number and
around the marks of a date and a time. An instant needs its offset: `Z`, `UTC` or hours and
minutes east or west.
-/

namespace ObjectRelational.Calendar

set_option autoImplicit false

/-- A reader takes a piece from the front of a text, or refuses it. -/
abbrev Reader : Type → Type := StateT (List Char) Option

namespace Reader

def skipBlanks : Reader Unit :=
  modify Text.trimStart

def literal (c : Char) : Reader Unit := fun text =>
  match text with
  | first :: rest => if first = c then some ((), rest) else none
  | [] => none

/-- One or more ASCII digits, at most `width` of them. -/
def digitRun (width : Nat) : Reader (List Char) := fun text =>
  let digits := (text.take width).takeWhile Char.isDigit
  if digits = [] then none else some (digits, text.drop digits.length)

def number (width : Nat) : Reader Nat := do
  skipBlanks
  return Text.digitsValue (← digitRun width)

/-- A year: with a sign any number of digits, else at most four. -/
def year : Reader Int := do
  skipBlanks
  match (← get) with
  | '-' :: rest =>
      set rest
      return -(Text.digitsValue (← digitRun rest.length) : Int)
  | '+' :: rest =>
      set rest
      return Text.digitsValue (← digitRun rest.length)
  | _ => return Text.digitsValue (← digitRun 4)

def date : Reader Date := do
  let y ← year
  skipBlanks
  literal '-'
  let m ← number 2
  skipBlanks
  literal '-'
  let d ← number 2
  StateT.lift (Date.ofYmd? y m d)

/-- The nanoseconds after a point: up to nine digits count, and further ones are passed over. -/
def fraction : Reader Nat := do
  match (← get) with
  | '.' :: rest =>
      set rest
      let digits ← digitRun 9
      modify (List.dropWhile Char.isDigit)
      return Text.digitsValue digits * Nat.pow 10 (9 - digits.length)
  | _ => return 0

def hourAndMinute : Reader (Nat × Nat) := do
  let h ← number 2
  skipBlanks
  literal ':'
  let m ← number 2
  return (h, m)

/-- The seconds and nanoseconds of a time, with the white space around them. -/
def seconds : Reader (Nat × Nat) := do
  skipBlanks
  literal ':'
  let s ← number 2
  let nano ← fraction
  skipBlanks
  return (s, nano)

def time : Reader TimeOfDay := do
  let (h, m) ← hourAndMinute
  let (s, nano) ← seconds
  StateT.lift (TimeOfDay.ofClock? h m s nano)

/-- A time whose seconds may be missing. -/
def briefTime : Reader TimeOfDay := do
  let (h, m) ← hourAndMinute
  let rest ← get
  let (s, nano) ← (match seconds rest with
    | some (found, rest) => do set rest; return found
    | none => return (0, 0) : Reader (Nat × Nat))
  skipBlanks
  StateT.lift (TimeOfDay.ofClock? h m s nano)

/-- The minutes east of UTC: `Z`, or a sign, two digits of hours, colons or white space, and two
digits of minutes. -/
def signedOffset : Reader Int := fun text =>
  match text with
  | [] => none
  | mark :: rest =>
      if mark = 'Z' ∨ mark = 'z' then some (0, rest)
      else if mark = '+' ∨ mark = '-' ∨ mark = '\u2212' then
        match rest with
        | h₁ :: h₂ :: rest =>
            match rest.dropWhile fun c => c = ':' || Text.isBlank c with
            | m₁ :: m₂ :: rest =>
                if [h₁, h₂, m₁, m₂].all Char.isDigit ∧ m₁ ≤ '5' then
                  let minutes : Int :=
                    60 * Text.digitsValue [h₁, h₂] + Text.digitsValue [m₁, m₂]
                  if minutes < 1440 then some (if mark = '+' then minutes else -minutes, rest)
                  else none
                else none
            | _ => none
        | _ => none
      else none

/-- A signed offset or the name `UTC` in any mix of capitals. -/
def offset : Reader Int := fun text =>
  if (text.take 3).map Char.toLower = ['u', 't', 'c'] then some (0, text.drop 3)
  else signedOffset text

def instant : Reader Instant := do
  let d ← date
  match (← get) with
  | mark :: rest =>
      if mark = 't' ∨ mark = 'T' ∨ mark = ' ' then
        set rest
        let t ← time
        skipBlanks
        let east ← offset
        StateT.lift (Instant.ofLocal? ⟨d, t⟩ east)
      else failure
  | [] => failure

/-- Applies a reader to a whole text. -/
def whole {α : Type} (reader : Reader α) (text : String) : Option α :=
  match reader text.toList with
  | some (found, []) => some found
  | _ => none

end Reader

/-! ## Whole texts -/

open Reader

def readDate? : String → Option Date :=
  whole do
    let d ← date
    skipBlanks
    return d

def readTime? : String → Option TimeOfDay :=
  whole briefTime

def readTimestamp? : String → Option Timestamp :=
  whole do
    let d ← date
    skipBlanks
    literal 'T'
    let t ← time
    return ⟨d, t⟩

def readInstant? : String → Option Instant :=
  whole instant

end ObjectRelational.Calendar
