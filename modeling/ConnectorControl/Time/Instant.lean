import ConnectorControl.Text.Blank
import ConnectorControl.Text.Integer

/-!
# Points in time

An instant is read from a date, a time and an offset, as RFC 3339 has them and more freely: blanks
may stand before every part, numbers may be short, years beyond four digits have a sign, and `UTC`
is an offset.  A number is held against its bounds as soon as it is read; whether the date is one of
the calendar is asked last.  An instant is written in UTC with whole seconds; a fraction of a second
is dropped.  Second 60 is a leap second.
-/

namespace ConnectorControl

/-- why a text is not read as an instant -/
inductive InstantError where
  | tooShort
  | invalid
  | outOfRange
  /-- there is more behind the offset -/
  | trailing
  /-- the calendar ends between the local time and UTC -/
  | impossible
deriving DecidableEq

def InstantError.message : InstantError → String
  | .tooShort => "premature end of input"
  | .invalid => "input contains invalid characters"
  | .outOfRange => "input is out of range"
  | .trailing => "trailing input"
  | .impossible => "no possible date and time matching input"

/-- a second of a day of the proleptic Gregorian calendar, in UTC -/
structure Instant where
  year : Int
  month : Nat
  day : Nat
  minuteOfDay : Nat
  second : Nat
deriving DecidableEq

namespace Instant

def isLeapYear (y : Int) : Bool := y % 4 = 0 && (y % 100 ≠ 0 || y % 400 = 0)

def daysInMonth (y : Int) (m : Nat) : Nat :=
  if m = 2 then if isLeapYear y then 29 else 28
  else if m = 4 || m = 6 || m = 9 || m = 11 then 30
  else 31

def nextDay (t : Instant) : Instant :=
  if t.day < daysInMonth t.year t.month then { t with day := t.day + 1 }
  else if t.month < 12 then { t with month := t.month + 1, day := 1 }
  else { t with year := t.year + 1, month := 1, day := 1 }

def previousDay (t : Instant) : Instant :=
  if 1 < t.day then { t with day := t.day - 1 }
  else if 1 < t.month then
    { t with month := t.month - 1, day := daysInMonth t.year (t.month - 1) }
  else { t with year := t.year - 1, month := 12, day := 31 }

/-- the instant whose local time, `offset` minutes ahead of UTC, is the one given -/
def ofLocal (t : Instant) (offset : Int) : Instant :=
  let minute : Int := t.minuteOfDay - offset
  if minute < 0 then { t.previousDay with minuteOfDay := (minute + 1440).toNat }
  else if 1440 ≤ minute then { t.nextDay with minuteOfDay := (minute - 1440).toNat }
  else { t with minuteOfDay := minute.toNat }

/-- whether the calendar reaches the year -/
def inCalendar (year : Int) : Bool := -262143 ≤ year && year ≤ 262142

/-! ## reading -/

/-- reads a part in front of a text and leaves the rest -/
abbrev Scan := StateT (List Char) (Except InstantError)

namespace Scan

def skipBlanks : Scan Unit := modify fun cs => cs.dropWhile Text.isBlankChar

def isDigit (c : Char) : Bool := (Text.digit? c).isSome

/-- the number of at least one and at most so many digits -/
def digits (width : Nat) : Scan Nat := fun cs =>
  let ds := (cs.take width).takeWhile isDigit
  match Text.nat? ds, cs with
  | some n, _ => .ok (n, cs.drop ds.length)
  | none, [] => .error .tooShort
  | none, _ => .error .invalid

/-- a number of any length -/
def allDigits : Scan Nat := do digits (← get).length

/-- a number of at most two digits, between two bounds, behind blanks -/
def field (least most : Nat) : Scan Nat := do
  skipBlanks
  let n ← digits 2
  if least ≤ n ∧ n ≤ most then return n else throw .outOfRange

/-- a year of up to four digits, or of any number of digits behind a sign -/
def year : Scan Int := do
  skipBlanks
  let y : Int ← match ← get with
    | '-' :: cs => do
      set cs
      pure (-(← allDigits))
    | '+' :: cs => do
      set cs
      pure (← allDigits)
    | _ => pure (← digits 4)
  if Int32.minValue.toInt ≤ y ∧ y ≤ Int32.maxValue.toInt then return y else throw .outOfRange

/-- one of a few characters -/
def oneOf (marks : List Char) : Scan Unit := do
  match ← get with
  | [] => throw .tooShort
  | c :: cs => if c ∈ marks then set cs else throw .invalid

/-- a mark, which may stand behind blanks -/
def mark (c : Char) : Scan Unit := do
  skipBlanks
  oneOf [c]

/-- drops a fraction of a second -/
def skipFraction : Scan Unit := do
  match ← get with
  | '.' :: cs =>
    set cs
    let _ ← allDigits
  | _ => return ()

/-- Two digits.  What is too short for them is shorter than two bytes. -/
def twoDigits : Scan (Nat × Nat)
  | a :: b :: cs =>
    match Text.digit? a, Text.digit? b with
    | some a, some b => .ok ((a, b), cs)
    | _, _ => .error .invalid
  | [a] => .error (if a.utf8Size = 1 then .tooShort else .invalid)
  | [] => .error .tooShort

/-- the minutes of an offset in hours and minutes, with colons and blanks between them or nothing -/
def hoursAndMinutes : Scan Nat := do
  let (h₁, h₂) ← twoDigits
  modify fun cs => cs.dropWhile fun c => c = ':' || Text.isBlankChar c
  let (m₁, m₂) ← twoDigits
  if m₁ < 6 then return 60 * (10 * h₁ + h₂) + (10 * m₁ + m₂) else throw .outOfRange

/-- the offset from UTC in minutes, behind blanks -/
def offset : Scan Int := do
  skipBlanks
  match ← get with
  | [] => throw .tooShort
  | c :: cs =>
    if c = 'Z' ∨ c = 'z' then
      set cs
      return 0
    else if ((c :: cs).take 3).map Char.toLower = ['u', 't', 'c'] then
      set (cs.drop 2)
      return 0
    else if c = '+' then
      set cs
      return (← hoursAndMinutes)
    else if c = '-' ∨ c = '\u2212' then
      set cs
      return -(← hoursAndMinutes)
    else throw .invalid

/-- year, month and day, without a look at the calendar -/
def date : Scan (Int × Nat × Nat) := do
  let year ← year
  mark '-'
  let month ← field 1 12
  mark '-'
  let day ← field 1 31
  return (year, month, day)

/-- the minute of the day and the second -/
def timeOfDay : Scan (Nat × Nat) := do
  let hour ← field 0 23
  mark ':'
  let minute ← field 0 59
  mark ':'
  let second ← field 0 60
  skipFraction
  return (60 * hour + minute, second)

/-- a local time and its offset from UTC in minutes, which are the whole text -/
def localTime : Scan (Instant × Int) := do
  let (year, month, day) ← date
  oneOf ['T', 't', ' ']
  let (minuteOfDay, second) ← timeOfDay
  let offset ← offset
  if (← get).all Text.isBlankChar then return ({ year, month, day, minuteOfDay, second }, offset)
  else throw .trailing

end Scan

/-- whether the calendar has the day -/
def isDate (t : Instant) : Bool := inCalendar t.year && t.day ≤ daysInMonth t.year t.month

def read (s : String) : Except InstantError Instant := do
  let ((t, offset), _) ← Scan.localTime.run s.toList
  if !t.isDate || 24 * 60 ≤ offset.natAbs then throw .outOfRange
  else
    let t := ofLocal t offset
    if inCalendar t.year then return t else throw .impossible

/-! ## writing -/

def padded (width n : Nat) : String :=
  let ds := toString n
  .ofList (List.replicate (width - ds.length) '0') ++ ds

def yearText (y : Int) : String :=
  if y < 0 then "-" ++ padded 4 y.natAbs
  else if y < 10000 then padded 4 y.toNat
  else "+" ++ toString y

def text (t : Instant) : String :=
  yearText t.year ++ "-" ++ padded 2 t.month ++ "-" ++ padded 2 t.day ++ "T" ++
    padded 2 (t.minuteOfDay / 60) ++ ":" ++ padded 2 (t.minuteOfDay % 60) ++ ":" ++
    padded 2 t.second ++ "Z"

end Instant
end ConnectorControl
