/-
Moments in time and their texts.

A moment counts seconds in UTC from the start of 1970 in the proleptic Gregorian calendar.  It is
read from a timestamp with an offset, such as `2024-05-01T10:00:00+02:00`, or from a plain date,
which stands for its first second, and written as a timestamp in UTC.
-/
import RecordRules.Text.Blank
import RecordRules.Binary64.Decimal

namespace RecordRules

/-- A moment: whole seconds, and nanoseconds on top of them.  From `10 ^ 9` on the nanoseconds
lie in a leap second, which is counted with the second before it. -/
structure Moment where
  seconds : Int
  nanos : Nat
deriving DecidableEq

/-- A day of the proleptic Gregorian calendar. -/
structure Day where
  year : Int
  month : Nat
  day : Nat
deriving DecidableEq

namespace Day

def isLeapYear (y : Int) : Bool := y % 4 == 0 && (y % 100 != 0 || y % 400 == 0)

def monthLength (year : Int) (month : Nat) : Nat :=
  if month = 2 then if isLeapYear year then 29 else 28
  else if month = 4 ∨ month = 6 ∨ month = 9 ∨ month = 11 then 30
  else 31

/-- The years that dates may have. -/
def firstYear : Int := -262143
def lastYear : Int := 262142

def ofParts? (year : Int) (month day : Nat) : Option Day :=
  if firstYear ≤ year ∧ year ≤ lastYear ∧ 1 ≤ month ∧ month ≤ 12 ∧ 1 ≤ day ∧
      day ≤ monthLength year month then
    some ⟨year, month, day⟩
  else none

/-- The number of days from the start of 1970.  Years are counted from March, so that the leap
day comes last, in cycles of 400 years or 146097 days. -/
def toNumber (d : Day) : Int :=
  let y := if d.month ≤ 2 then d.year - 1 else d.year
  let cycle := y / 400
  let yearOfCycle := y % 400
  let monthFromMarch : Int := (d.month + 9) % 12
  let dayOfYear := (153 * monthFromMarch + 2) / 5 + d.day - 1
  let dayOfCycle := yearOfCycle * 365 + yearOfCycle / 4 - yearOfCycle / 100 + dayOfYear
  cycle * 146097 + dayOfCycle - 719468

def ofNumber (n : Int) : Day :=
  let z := n + 719468
  let cycle := z / 146097
  let dayOfCycle := z % 146097
  let yearOfCycle :=
    (dayOfCycle - dayOfCycle / 1460 + dayOfCycle / 36524 - dayOfCycle / 146096) / 365
  let dayOfYear := dayOfCycle - (365 * yearOfCycle + yearOfCycle / 4 - yearOfCycle / 100)
  let monthFromMarch := (5 * dayOfYear + 2) / 153
  let month := if monthFromMarch < 10 then monthFromMarch + 3 else monthFromMarch - 9
  let year := yearOfCycle + cycle * 400
  { year := if month ≤ 2 then year + 1 else year
    month := month.toNat
    day := (dayOfYear - (153 * monthFromMarch + 2) / 5 + 1).toNat }

end Day

namespace Moment

/-- The moment of a day and a time of day.  Second 60 is the leap second after second 59. -/
def ofParts (d : Day) (hour minute second nanos : Nat) : Moment :=
  let inLeap := second = 60
  { seconds := d.toNumber * 86400 + hour * 3600 + minute * 60 + (if inLeap then 59 else second)
    nanos := if inLeap then nanos + 1000000000 else nanos }

/-! ## Reading -/

def fixedNumber? (n : Nat) (s : List Char) : Option (Nat × List Char) :=
  let ds := s.take n
  if ds.length = n ∧ ds.all Char.isDigit then some (Binary64.digitsValue ds, s.drop n) else none

def expect? (c : Char) : List Char → Option (List Char)
  | d :: rest => if d = c then some rest else none
  | [] => none

/-- A fraction of a second after its point, in nanoseconds.  Digits after the ninth are dropped. -/
def nanos? (s : List Char) : Option (Nat × List Char) :=
  let (ds, tail) := Binary64.takeDigits s
  if ds.isEmpty then none
  else
    let kept := ds.take 9
    some (Binary64.digitsValue kept * Binary64.tenTo (9 - kept.length), tail)

def fraction? : List Char → Option (Nat × List Char)
  | '.' :: rest => nanos? rest
  | s => some (0, s)

/-- An offset from UTC in seconds: `Z`, or a sign with hours and minutes.  The sign may be the
typographic minus. -/
def offset? : List Char → Option (Int × List Char)
  | [] => none
  | c :: rest =>
    if c = 'Z' ∨ c = 'z' then some (0, rest)
    else if c = '+' ∨ c = '-' ∨ c = '\u2212' then do
      let (hours, s) ← fixedNumber? 2 rest
      let s ← expect? ':' s
      let (minutes, s) ← fixedNumber? 2 s
      if hours ≤ 23 ∧ minutes ≤ 59 then
        let size : Int := hours * 3600 + minutes * 60
        return (if c = '+' then size else -size, s)
      else none
    else none

/-- A timestamp with date, time of day and offset, to the end of the text. -/
def parseTimestamp? (s : List Char) : Option Moment := do
  let (year, s) ← fixedNumber? 4 s
  let s ← expect? '-' s
  let (month, s) ← fixedNumber? 2 s
  let s ← expect? '-' s
  let (day, s) ← fixedNumber? 2 s
  let d ← Day.ofParts? year month day
  match s with
  | [] => none
  | c :: s =>
    if c = 'T' ∨ c = 't' ∨ c = ' ' then do
      let (hour, s) ← fixedNumber? 2 s
      let s ← expect? ':' s
      let (minute, s) ← fixedNumber? 2 s
      let s ← expect? ':' s
      let (second, s) ← fixedNumber? 2 s
      let (nanos, s) ← fraction? s
      let (shift, s) ← offset? s
      if hour ≤ 23 ∧ minute ≤ 59 ∧ second ≤ 60 ∧ s.isEmpty then
        let there := ofParts d hour minute second nanos
        return { there with seconds := there.seconds - shift }
      else none
    else none

/-- A number of at most `n` digits, after blanks, and what follows it. -/
def shortNumber? (n : Nat) (s : List Char) : Option (Nat × List Char) :=
  let s := Text.dropBlanks s
  let ds := (s.take n).takeWhile Char.isDigit
  if ds.isEmpty then none else some (Binary64.digitsValue ds, s.drop ds.length)

/-- A year after blanks: up to four digits, or a sign and any number of digits. -/
def year? (s : List Char) : Option (Int × List Char) :=
  match Text.dropBlanks s with
  | '-' :: rest => signed (-1) rest
  | '+' :: rest => signed 1 rest
  | s => (shortNumber? 4 s).map fun (n, t) => ((n : Int), t)
where
  signed (sign : Int) (s : List Char) : Option (Int × List Char) :=
    let (ds, tail) := Binary64.takeDigits s
    if ds.isEmpty then none else some (sign * Binary64.digitsValue ds, tail)

def parseDay? (s : List Char) : Option Moment := do
  let (year, s) ← year? s
  let s ← expect? '-' s
  let (month, s) ← shortNumber? 2 s
  let s ← expect? '-' s
  let (day, s) ← shortNumber? 2 s
  let d ← Day.ofParts? year month day
  if s.isEmpty then return ofParts d 0 0 0 0 else none

def parse? (s : String) : Option Moment :=
  (parseTimestamp? s.toList).or (parseDay? s.toList)

/-! ## Writing -/

def padded (width n : Nat) : String :=
  let text := toString n
  String.ofList (List.replicate (width - text.length) '0') ++ text

/-- Years of four digits stand alone, and others carry their sign. -/
def yearText (y : Int) : String :=
  if 0 ≤ y ∧ y ≤ 9999 then padded 4 y.toNat
  else (if y < 0 then "-" else "+") ++ padded 4 y.natAbs

/-- The shortest of no, three, six or nine digits that shows the fraction in full. -/
def fractionText (nanos : Nat) : String :=
  if nanos = 0 then ""
  else if nanos % 1000000 = 0 then "." ++ padded 3 (nanos / 1000000)
  else if nanos % 1000 = 0 then "." ++ padded 6 (nanos / 1000)
  else "." ++ padded 9 nanos

def text (m : Moment) : String :=
  let d := Day.ofNumber (m.seconds / 86400)
  let time := (m.seconds % 86400).toNat
  let inLeap := 1000000000 ≤ m.nanos
  let second := time % 60 + (if inLeap then 1 else 0)
  let nanos := if inLeap then m.nanos - 1000000000 else m.nanos
  yearText d.year ++ "-" ++ padded 2 d.month ++ "-" ++ padded 2 d.day ++ "T" ++
    padded 2 (time / 3600) ++ ":" ++ padded 2 (time / 60 % 60) ++ ":" ++ padded 2 second ++
    fractionText nanos ++ "+00:00"

end Moment
end RecordRules
