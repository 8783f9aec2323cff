import SqlForms.Calendar.Date

/-! # Times of day and timestamps

    A time has nanoseconds.  In a leap second the nanosecond field is one
    second or more, and the second that is written is the next: 60 after
    second 59.  A time that is read has no leap second but after second 59;
    one after another second is written like the second that follows. -/

namespace SqlForms.Calendar

/-- A time of day. -/
structure Time where
  hour : Nat
  minute : Nat
  second : Nat
  nanosecond : Nat
  hour_lt : hour < 24
  minute_lt : minute < 60
  second_lt : second < 60
  nanosecond_lt : nanosecond < 2000000000
  deriving DecidableEq

namespace Time

/-- The time with the given fields, if there is one; a leap second comes after second 59. -/
def ofFields? (hour minute second nanosecond : Nat) : Option Time :=
  if h : (hour < 24 ∧ minute < 60) ∧ (second < 60 ∧ nanosecond < 2000000000) ∧
      (1000000000 ≤ nanosecond → second = 59) then
    some ⟨hour, minute, second, nanosecond, h.1.1, h.1.2, h.2.1.1, h.2.1.2⟩
  else none

/-- The second as it is written: in a leap second the one after. -/
def shownSecond (t : Time) : Nat :=
  t.second + t.nanosecond / 1000000000

/-- The nanosecond within the second that is written. -/
def shownNanosecond (t : Time) : Nat :=
  t.nanosecond % 1000000000

/-- Hour, minute and second divided by colons. -/
def clockChars (t : Time) : List Char :=
  padded 2 t.hour ++ ':' :: padded 2 t.minute ++ ':' :: padded 2 t.shownSecond

/-- The milliseconds within the second, as a fraction of three digits unless they are zero. -/
def millisecondChars (t : Time) : List Char :=
  let millis := t.nanosecond / 1000000 % 1000
  if millis = 0 then [] else '.' :: padded 3 millis

/-- The time to the millisecond, as SQL has it. -/
def sqlChars (t : Time) : List Char :=
  t.clockChars ++ t.millisecondChars

/-- The fraction of the second with the fewest of three, six or nine digits that are exact. -/
def fractionChars (t : Time) : List Char :=
  let n := t.shownNanosecond
  if n = 0 then []
  else if n % 1000000 = 0 then '.' :: padded 3 (n / 1000000)
  else if n % 1000 = 0 then '.' :: padded 6 (n / 1000)
  else '.' :: padded 9 n

/-- The exact time. -/
def chars (t : Time) : List Char :=
  t.clockChars ++ t.fractionChars

/-- The exact text of a time. -/
def text (t : Time) : String :=
  String.ofList t.chars

/-- Reads hour and minute at the front of a text. -/
def scanMinute? (cs : List Char) : Option (Nat × Nat × List Char) := do
  let (hour, cs) ← readField? 2 cs
  let cs ← readMark? ':' cs
  let (minute, cs) ← readField? 2 cs
  return (hour, minute, cs)

/-- Reads the digits of a fraction and gives nanoseconds; digits past the ninth are dropped. -/
def scanFraction? (cs : List Char) : Option (Nat × List Char) :=
  let ds := cs.takeWhile Decimal.isDigit
  let kept := ds.take 9
  if ds = [] then none
  else some (Decimal.ofDigits kept * Nat.pow 10 (9 - kept.length), cs.dropWhile Decimal.isDigit)

/-- Reads a colon, the second, an optional fraction and trailing blanks. -/
def scanSecond? (cs : List Char) : Option (Nat × Nat × List Char) := do
  let cs ← readMark? ':' cs
  let (second, cs) ← readField? 2 cs
  if second > 60 then none
  let (nanosecond, cs) ← match cs with
    | '.' :: rest => scanFraction? rest
    | cs => some (0, cs)
  return (second, nanosecond, Text.skipBlanks cs)

/-- The time read from its fields, where second 60 is a leap second. -/
def ofRead? (hour minute second nanosecond : Nat) : Option Time :=
  if second = 60 then ofFields? hour minute 59 (nanosecond + 1000000000)
  else ofFields? hour minute second nanosecond

/-- Reads a time at the front of a text; the second is required. -/
def scan? (cs : List Char) : Option (Time × List Char) := do
  let (hour, minute, cs) ← scanMinute? cs
  let (second, nanosecond, cs) ← scanSecond? cs
  let time ← ofRead? hour minute second nanosecond
  return (time, cs)

/-- Reads a time that is the whole text; the second may be missing. -/
def read? (s : String) : Option Time := do
  let (hour, minute, cs) ← scanMinute? s.toList
  let (second, nanosecond, cs) := (scanSecond? cs).getD (0, 0, cs)
  if Text.skipBlanks cs ≠ [] then none
  ofRead? hour minute second nanosecond

end Time

/-- A day and a time of that day. -/
structure Timestamp where
  date : Date
  time : Time
  deriving DecidableEq

namespace Timestamp

/-- Date and time with a blank between, the time to the millisecond, as SQL has it. -/
def sqlChars (t : Timestamp) : List Char :=
  t.date.chars ++ ' ' :: t.time.sqlChars

/-- Date and exact time with a `T` between. -/
def text (t : Timestamp) : String :=
  String.ofList (t.date.chars ++ 'T' :: t.time.chars)

/-- Reads a timestamp that is the whole text. -/
def read? (s : String) : Option Timestamp := do
  let (date, cs) ← Date.scan? s.toList
  let cs ← readMark? 'T' cs
  let (time, cs) ← Time.scan? cs
  if cs ≠ [] then none
  return ⟨date, time⟩

end Timestamp
end SqlForms.Calendar
