import EntitySchema.Number.Read
import EntitySchema.Number.Text

/-!
# Instants of the calendar

An instant is a number of milliseconds since the start of 1970 in UTC, in the Gregorian calendar also
before its time.  It is read from the forms of ISO 8601

    year ['-' month ['-' day]] ['T' hour ':' minute [':' second ['.' fraction]] [zone]]

where a year has four digits, or a sign and six, and a zone is `Z` or a sign with hours and minutes.
The form is checked field by field: every month may have 31 days, and a day behind the last one of its
month is one of the next month.  The local time of the process is taken to be UTC, so a time without zone
is one in UTC as a date without time always is.  Other forms than these are not read.
-/

namespace EntitySchema

namespace Calendar

/-- The fields of a written instant.  The fraction is the digits behind the point of the seconds, and the
zone is in minutes. -/
structure Moment where
  year : Int
  month : Nat := 1
  day : Nat := 1
  hour : Nat := 0
  minute : Nat := 0
  second : Nat := 0
  fraction : List Char := []
  zone : Int := 0
  deriving DecidableEq, Repr

/-! ### Days -/

/-- The days from the start of 1970 to a day of a month.  The year is counted from March, so that a
leap day is its last day. -/
def daysFromCivil (year : Int) (month day : Nat) : Int :=
  let year := if month ≤ 2 then year - 1 else year
  let era := year.fdiv 400
  let yearOfEra := year - era * 400
  let fromMarch : Int := if month ≤ 2 then month + 9 else month - 3
  let dayOfYear := (153 * fromMarch + 2).fdiv 5 + day - 1
  let dayOfEra := yearOfEra * 365 + yearOfEra.fdiv 4 - yearOfEra.fdiv 100 + dayOfYear
  era * 146097 + dayOfEra - 719468

/-- The year, month and day that are a number of days behind the start of 1970. -/
def civilFromDays (days : Int) : Int × Nat × Nat :=
  let shifted := days + 719468
  let era := shifted.fdiv 146097
  let dayOfEra := shifted - era * 146097
  let yearOfEra :=
    (dayOfEra - dayOfEra.fdiv 1460 + dayOfEra.fdiv 36524 - dayOfEra.fdiv 146096).fdiv 365
  let dayOfYear := dayOfEra - (365 * yearOfEra + yearOfEra.fdiv 4 - yearOfEra.fdiv 100)
  let fromMarch := (5 * dayOfYear + 2).fdiv 153
  let day := dayOfYear - (153 * fromMarch + 2).fdiv 5 + 1
  let month := if fromMarch < 10 then fromMarch + 3 else fromMarch - 9
  let year := yearOfEra + era * 400
  (if month ≤ 2 then year + 1 else year, month.toNat, day.toNat)

/-- The milliseconds of a day. -/
def millisecondsOfDay : Int := 86400000

/-- The largest distance of an instant from the start of 1970. -/
def maxInstant : Int := 8640000000000000

/-- The milliseconds of the digits of a fraction; further digits are cut off.  At most nine digits behind
the leading zeros are looked at once there are more than nine digits. -/
def fractionMilliseconds (digits : List Char) : Nat :=
  if digits.length ≤ 9 then Number.digitsValue 10 ((digits ++ ['0', '0']).take 3)
  else Number.digitsValue 10 ((digits.dropWhile (· == '0')).take 9) / 1000000

/-- The instant of a moment, without regard to the largest distance. -/
def Moment.milliseconds (m : Moment) : Int :=
  let minutes := (m.hour : Int) * 60 + m.minute - m.zone
  daysFromCivil m.year m.month m.day * millisecondsOfDay +
    (minutes * 60 + m.second) * 1000 + fractionMilliseconds m.fraction

/-- Whether the fields are within their ranges.  Midnight may be written as the end of a day, with nothing
but zeros behind the hour, however many digits the fraction has. -/
def Moment.isInRange (m : Moment) : Bool :=
  let endOfDay := m.hour == 24 && m.minute == 0 && m.second == 0 && m.fraction.all (· == '0')
  1 ≤ m.month && m.month ≤ 12 && 1 ≤ m.day && m.day ≤ 31 &&
    (endOfDay || (m.hour ≤ 23 && m.minute ≤ 59 && m.second ≤ 59))

/-- The instant of a moment whose fields are within their ranges. -/
def Moment.toInstant? (m : Moment) : Option Int :=
  if m.isInRange && m.milliseconds.natAbs ≤ maxInstant.natAbs then some m.milliseconds else none

/-! ### Reading -/

/-- Takes exactly `n` digits. -/
def takeDigits (n : Nat) (cs : List Char) : Option (Nat × List Char) :=
  let digits := cs.take n
  if digits.length == n && digits.all Number.isDigit then
    some (Number.digitsValue 10 digits, cs.drop n)
  else none

/-- Takes a character, which may be written in either case. -/
def takeMark (mark : Char) : List Char → Option (List Char)
  | c :: cs => if c == mark || c == mark.toLower then some cs else none
  | [] => none

/-- Takes the mark and `n` digits if the mark is there. -/
def takeField (mark : Char) (n : Nat) (cs : List Char) : Option (Option Nat × List Char) :=
  match takeMark mark cs with
  | none => some (none, cs)
  | some rest => (takeDigits n rest).map fun (value, rest) => (some value, rest)

/-- Takes the year.  The year zero has no negative sign. -/
def takeYear (cs : List Char) : Option (Int × List Char) :=
  match cs with
  | '+' :: rest => (takeDigits 6 rest).map fun (n, rest) => ((n : Int), rest)
  | '-' :: rest =>
    match takeDigits 6 rest with
    | some (n, rest) => if n = 0 then none else some (-(n : Int), rest)
    | none => none
  | _ => (takeDigits 4 cs).map fun (n, rest) => ((n : Int), rest)

/-- Takes the year, month and day. -/
def takeDate (cs : List Char) : Option (Moment × List Char) := do
  let (year, rest) ← takeYear cs
  let (month, rest) ← takeField '-' 2 rest
  match month with
  | none => some (⟨year, 1, 1, 0, 0, 0, [], 0⟩, rest)
  | some month =>
    let (day, rest) ← takeField '-' 2 rest
    some (⟨year, month, day.getD 1, 0, 0, 0, [], 0⟩, rest)

/-- Takes the point and the digits of a fraction if the point is there. -/
def takeFraction (cs : List Char) : Option (List Char × List Char) :=
  match cs with
  | '.' :: rest =>
    let digits := rest.takeWhile Number.isDigit
    if digits.isEmpty then none else some (digits, rest.dropWhile Number.isDigit)
  | _ => some ([], cs)

/-- Takes the zone, in minutes. -/
def takeZone (cs : List Char) : Option (Int × List Char) :=
  let offset (negative : Bool) (rest : List Char) : Option (Int × List Char) := do
    let (hour, rest) ← takeDigits 2 rest
    let (minute, rest) ← takeDigits 2 ((takeMark ':' rest).getD rest)
    if hour ≤ 23 && minute ≤ 59 then
      let n : Int := hour * 60 + minute
      some (if negative then -n else n, rest)
    else none
  match cs with
  | '+' :: rest => offset false rest
  | '-' :: rest => offset true rest
  | _ => some (0, (takeMark 'Z' cs).getD cs)

/-- Takes the time behind its mark. -/
def takeTime (date : Moment) (cs : List Char) : Option (Moment × List Char) := do
  let (hour, rest) ← takeDigits 2 cs
  let rest ← takeMark ':' rest
  let (minute, rest) ← takeDigits 2 rest
  let (second, rest) ← takeField ':' 2 rest
  let (fraction, rest) ← if second.isSome then takeFraction rest else some ([], rest)
  let (zone, rest) ← takeZone rest
  some (⟨date.year, date.month, date.day, hour, minute, second.getD 0, fraction, zone⟩, rest)

/-- The fields of a text that has one of the forms. -/
def moment? (cs : List Char) : Option Moment := do
  let (date, rest) ← takeDate cs
  let (moment, rest) ←
    match takeMark 'T' rest with
    | some rest => takeTime date rest
    | none => some (date, rest)
  if rest.isEmpty then some moment else none

/-- The instant of a text. -/
def read? (text : String) : Option Int :=
  (moment? text.toList).bind Moment.toInstant?

/-! ### Writing -/

/-- A number with at least `n` digits. -/
def padded (n value : Nat) : List Char :=
  let digits := Nat.toDigits 10 value
  List.replicate (n - digits.length) '0' ++ digits

/-- The text of a year: four digits, or a sign and six. -/
def yearText (year : Int) : List Char :=
  if 0 ≤ year && year ≤ 9999 then padded 4 year.toNat
  else (if year < 0 then '-' else '+') :: padded 6 year.natAbs

/-- The moment of an instant, in UTC, with a fraction of three digits. -/
def momentOf (instant : Int) : Moment :=
  let days := instant.fdiv millisecondsOfDay
  let rest := (instant - days * millisecondsOfDay).toNat
  let (year, month, day) := civilFromDays days
  ⟨year, month, day, rest / 3600000, rest / 60000 % 60, rest / 1000 % 60, padded 3 (rest % 1000), 0⟩

/-- The text of an instant, with milliseconds. -/
def text (instant : Int) : String :=
  let m := momentOf instant
  String.ofList
    (yearText m.year ++ '-' :: padded 2 m.month ++ '-' :: padded 2 m.day ++
      'T' :: padded 2 m.hour ++ ':' :: padded 2 m.minute ++ ':' :: padded 2 m.second ++
      '.' :: m.fraction ++ ['Z'])

/-- The names of the days of a week, from Sunday on. -/
def weekdays : List String := ["Sun", "Mon", "Tue", "Wed", "Thu", "Fri", "Sat"]

/-- The names of the months. -/
def months : List String :=
  ["Jan", "Feb", "Mar", "Apr", "May", "Jun", "Jul", "Aug", "Sep", "Oct", "Nov", "Dec"]

/-- The text of an instant for people, with the names of day, month and zone. -/
def longText (instant : Int) : String :=
  let m := momentOf instant
  let weekday := ((instant.fdiv millisecondsOfDay + 4).fmod 7).toNat
  let sign := if m.year < 0 then ['-'] else []
  weekdays.getD weekday "" ++ " " ++ months.getD (m.month - 1) "" ++ " " ++
    String.ofList
      (padded 2 m.day ++ ' ' :: sign ++ padded 4 m.year.natAbs ++ ' ' :: padded 2 m.hour ++
        ':' :: padded 2 m.minute ++ ':' :: padded 2 m.second) ++
    " GMT+0000 (Coordinated Universal Time)"

end Calendar

end EntitySchema
