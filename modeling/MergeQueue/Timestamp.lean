import MergeQueue.Text.Basic

/-!
# Points in time

A point in time is counted in seconds from the start of 1970 in UTC, with nanoseconds. A leap
second is counted with the second in front of it, as nanoseconds from one thousand million on. The
written form is `2026-01-01T00:00:00Z` with the fraction in three, six or nine digits, the fewest
that hold it.
-/
namespace MergeQueue

open Text

/-- A day of the Gregorian calendar, carried on into the past. -/
structure Date where
  year : Int
  month : Nat
  day : Nat
deriving DecidableEq, Repr

namespace Date

def isLeapYear (year : Int) : Bool := year % 4 = 0 && (year % 100 ≠ 0 || year % 400 = 0)

def daysInMonth (year : Int) (month : Nat) : Nat :=
  match month with
  | 2 => if isLeapYear year then 29 else 28
  | 4 | 6 | 9 | 11 => 30
  | _ => 31

def isYear (year : Int) : Bool := -262143 ≤ year && year ≤ 262142

def isValid (d : Date) : Bool :=
  isYear d.year && 1 ≤ d.month && d.month ≤ 12 && 1 ≤ d.day &&
    d.day ≤ daysInMonth d.year d.month

/-- Days from the first day of 1970. Years are taken to begin in March, so that a leap day is the
last one. -/
def toDays (d : Date) : Int :=
  let year := if d.month ≤ 2 then d.year - 1 else d.year
  let era := year / 400
  let yearOfEra := year - era * 400
  let month : Int := (d.month + 9) % 12
  let dayOfYear := (153 * month + 2) / 5 + d.day - 1
  era * 146097 + yearOfEra * 365 + yearOfEra / 4 - yearOfEra / 100 + dayOfYear - 719468

def ofDays (days : Int) : Date :=
  let days := days + 719468
  let era := days / 146097
  let dayOfEra := days - era * 146097
  let yearOfEra := (dayOfEra - dayOfEra / 1460 + dayOfEra / 36524 - dayOfEra / 146096) / 365
  let dayOfYear := dayOfEra - (365 * yearOfEra + yearOfEra / 4 - yearOfEra / 100)
  let month := (5 * dayOfYear + 2) / 153
  let day := (dayOfYear - (153 * month + 2) / 5 + 1).toNat
  let month := (if month < 10 then month + 3 else month - 9).toNat
  let year := yearOfEra + era * 400
  ⟨if month ≤ 2 then year + 1 else year, month, day⟩

end Date

structure Timestamp where
  second : Int
  nano : Nat
deriving DecidableEq, Repr

namespace Timestamp

/-- Points in time that there are: in years that can be written, and a leap second only behind the
last second of a minute. -/
structure IsValid (t : Timestamp) : Prop where
  year : Date.isYear (Date.ofDays (t.second / 86400)).year = true
  nano_lt : t.nano < 2000000000
  leap : 1000000000 ≤ t.nano → t.second % 60 = 59

def padded (width n : Nat) : List Char := (decimal n).leftpad width '0'

/-- A year in four digits, or with its sign if four digits do not hold it. -/
def yearText (year : Int) : List Char :=
  if 0 ≤ year ∧ year ≤ 9999 then padded 4 year.toNat
  else (if year < 0 then '-' else '+') :: padded 4 year.natAbs

def fractionText (nano : Nat) : List Char :=
  if nano = 0 then []
  else if nano % 1000000 = 0 then '.' :: padded 3 (nano / 1000000)
  else if nano % 1000 = 0 then '.' :: padded 6 (nano / 1000)
  else '.' :: padded 9 nano

def text (t : Timestamp) : List Char :=
  let date := Date.ofDays (t.second / 86400)
  let ofDay := (t.second % 86400).toNat
  let leap := t.nano / 1000000000
  yearText date.year ++ '-' :: padded 2 date.month ++ '-' :: padded 2 date.day ++
    'T' :: padded 2 (ofDay / 3600) ++ ':' :: padded 2 (ofDay / 60 % 60) ++
    ':' :: padded 2 (ofDay % 60 + leap) ++ fractionText (t.nano % 1000000000) ++ ['Z']

end Timestamp

/-!
## Reading points in time

A point in time is read from a date, a `T` or a space, a time of day and an offset from UTC.
Reading is generous: numbers may have fewer digits than they are written with, white space may
stand in front of the numbers and their marks, and a year may have a sign and then any number of
digits. More than nine digits of a fraction are dropped. The offset is `Z`, `UTC`, or a sign with
hours and minutes.
-/

namespace Timestamp

def skipSpace (s : List Char) : List Char := s.dropWhile isWhiteSpace

/-- At most `most` digits in front, at least one, and the rest. -/
def readNumber (most : Nat) (s : List Char) : Option (Nat × List Char) :=
  let ds := (s.take most).takeWhile Char.isDigit
  if ds.isEmpty then none else some (ofDecimal ds, s.drop ds.length)

def readField (least most : Nat) (s : List Char) : Option (Nat × List Char) :=
  match readNumber 2 (skipSpace s) with
  | some (n, s) => if least ≤ n ∧ n ≤ most then some (n, s) else none
  | none => none

def readYear (s : List Char) : Option (Int × List Char) :=
  match skipSpace s with
  | '-' :: s => (readNumber s.length s).map fun (n, s) => (-(n : Int), s)
  | '+' :: s => (readNumber s.length s).map fun (n, s) => ((n : Int), s)
  | s => (readNumber 4 s).map fun (n, s) => ((n : Int), s)

def readMark (mark : Char) (s : List Char) : Option (List Char) :=
  match skipSpace s with
  | c :: s => if c = mark then some s else none
  | [] => none

def readDate (s : List Char) : Option (Date × List Char) := do
  let (year, s) ← readYear s
  let s ← readMark '-' s
  let (month, s) ← readField 1 12 s
  let s ← readMark '-' s
  let (day, s) ← readField 1 31 s
  let date : Date := ⟨year, month, day⟩
  if date.isValid then some (date, s) else none

def readFraction (s : List Char) : Option (Nat × List Char) :=
  match s with
  | '.' :: s =>
    let ds := s.takeWhile Char.isDigit
    if ds.isEmpty then none
    else
      let kept := ds.take 9
      some (ofDecimal (kept ++ List.replicate (9 - kept.length) '0'), s.drop ds.length)
  | s => some (0, s)

/-- Seconds from midnight and nanoseconds. Second 60 is a leap second. -/
def readTime (s : List Char) : Option (Nat × Nat × List Char) := do
  let (hour, s) ← readField 0 23 s
  let s ← readMark ':' s
  let (minute, s) ← readField 0 59 s
  let s ← readMark ':' s
  let (second, s) ← readField 0 60 s
  let (nano, s) ← readFraction s
  let leap := second / 60
  some (hour * 3600 + minute * 60 + second - leap, leap * 1000000000 + nano, s)

def readClock (s : List Char) : Option (Int × List Char) :=
  match s with
  | a :: b :: s =>
    match s.dropWhile fun c => c = ':' || isWhiteSpace c with
    | c :: d :: s =>
      if [a, b, c, d].all Char.isDigit ∧ c ≤ '5' then
        let seconds := ofDecimal [a, b] * 3600 + ofDecimal [c, d] * 60
        if seconds < 86400 then some (seconds, s) else none
      else none
    | _ => none
  | _ => none

def readOffset (s : List Char) : Option (Int × List Char) :=
  if (s.take 3).map Char.toUpper = ['U', 'T', 'C'] then some (0, s.drop 3)
  else
    match s with
    | 'Z' :: s => some (0, s)
    | 'z' :: s => some (0, s)
    | '+' :: s => readClock s
    | '-' :: s => (readClock s).map fun (n, s) => (-n, s)
    | '−' :: s => (readClock s).map fun (n, s) => (-n, s)
    | _ => none

def read (s : List Char) : Option Timestamp := do
  let (date, s) ← readDate s
  let s ←
    match s with
    | 'T' :: s => some s
    | 't' :: s => some s
    | ' ' :: s => some s
    | _ => none
  let (ofDay, nano, s) ← readTime s
  let (offset, s) ← readOffset (skipSpace s)
  let second := date.toDays * 86400 + ofDay - offset
  if isBlank s ∧ Date.isYear (Date.ofDays (second / 86400)).year then some ⟨second, nano⟩ else none

end Timestamp

end MergeQueue
