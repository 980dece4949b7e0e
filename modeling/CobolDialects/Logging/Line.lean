import CobolDialects.Settings.Event
import CobolDialects.Text.Utf8

/-!
# Lines of a log

A line tells when an event was reported, its level, the part of the program it comes from and what
happened. Control characters in the message are spelled out, so that showing a log cannot act on a
terminal; line breaks are kept.
-/

namespace CobolDialects.Logging

/-! ## Times -/

/-- A number with at least so many digits. -/
def padded (width n : Nat) : List Char :=
  let digits := Nat.toDigits 10 n
  List.replicate (width - digits.length) '0' ++ digits

/-- A day of the calendar. -/
structure Date where
  year : Nat
  month : Nat
  day : Nat
deriving DecidableEq, Repr

/-- The date of a day counted from the first of January 1970. The count starts anew on the first of
March of every four hundredth year, so that a leap day is the last day of its cycle. -/
def Date.ofDay (day : Nat) : Date :=
  let day := day + 719468
  let era := day / 146097
  let dayOfEra := day % 146097
  let yearOfEra := (dayOfEra - dayOfEra / 1460 + dayOfEra / 36524 - dayOfEra / 146096) / 365
  let dayOfYear := dayOfEra - (365 * yearOfEra + yearOfEra / 4 - yearOfEra / 100)
  let shifted := (5 * dayOfYear + 2) / 153
  let month := if shifted < 10 then shifted + 3 else shifted - 9
  { year := yearOfEra + era * 400 + (if month ≤ 2 then 1 else 0)
    month
    day := dayOfYear - (153 * shifted + 2) / 5 + 1 }

example : Date.ofDay 0 = ⟨1970, 1, 1⟩ := by decide
example : Date.ofDay 11016 = ⟨2000, 2, 29⟩ := by decide

/-- A time, in microseconds since the start of 1970, as a line shows it. -/
def timestamp (time : Nat) : List Char :=
  let seconds := time / 1000000
  let date := Date.ofDay (seconds / 86400)
  padded 4 date.year ++ '-' :: padded 2 date.month ++ '-' :: padded 2 date.day ++
    'T' :: padded 2 (seconds / 3600 % 24) ++ ':' :: padded 2 (seconds / 60 % 60) ++
    ':' :: padded 2 (seconds % 60) ++ '.' :: padded 6 (time % 1000000) ++ ['Z']

/-! ## Lines -/

/-- A character of a message as a line shows it. -/
def shown (c : Char) : List Char :=
  if c = '\x1b' then ['\\', 'x', '1', 'b']
  else if c = '\x07' then ['\\', 'x', '0', '7']
  else if c = '\x08' then ['\\', 'x', '0', '8']
  else if c = '\x0c' then ['\\', 'x', '0', 'c']
  else if c = '\x7f' then ['\\', 'x', '7', 'f']
  else if 0x80 ≤ c.toNat ∧ c.toNat ≤ 0x9F then
    ['\\', 'u', '\x7b'] ++ Nat.toDigits 16 c.toNat ++ ['\x7d']
  else [c]

/-- The line of an event. -/
def line (time : Nat) (e : Event) : List Char :=
  let level := e.level.name.toList
  timestamp time ++ ' ' :: List.replicate (5 - level.length) ' ' ++ level ++ ' ' ::
    e.target.toList ++ ':' :: ' ' :: e.message.toList.flatMap shown ++ ['\n']

/-- The lines of a log. -/
def lines (time : Nat) (es : List Event) : String := String.ofList (es.flatMap (line time))

/-! ## Lines without their times -/

/-- The pattern of a time: a zero stands for any digit. -/
def stampPattern : List Char := "0000-00-00T00:00:00.000000Z ".toList

/-- What follows a pattern at the front of a text. -/
def stripPattern : List Char → List Char → Option (List Char)
  | [], cs => some cs
  | _ :: _, [] => none
  | p :: ps, c :: cs =>
    if (if p = '0' then c.isDigit else c = p) then stripPattern ps cs else none

/-- The lines of a text. -/
def splitLines : List Char → List (List Char)
  | [] => [[]]
  | c :: cs =>
    if c = '\n' then [] :: splitLines cs
    else
      match splitLines cs with
      | [] => [[c]]
      | l :: ls => (c :: l) :: ls

/-- A log with the time in front of every line removed. -/
def withoutTimes (text : String) : String :=
  String.ofList (['\n'].intercalate
    ((splitLines text.toList).map fun l => (stripPattern stampPattern l).getD l))

end CobolDialects.Logging
