import SqlForms.Number.Text
import SqlForms.Text.Classes

/-! # Dates

    Days of the proleptic Gregorian calendar with a year zero.  A date is
    valid by construction: its month exists, its day exists in that month,
    and its year lies in the supported range.

    Dates and times are written as numeric fields of a fixed least width and
    read as fields of a greatest width, with blanks allowed before a field
    and before the character that divides two fields. -/

namespace SqlForms.Calendar

/-! ## Numeric fields -/

/-- A number in decimal with zeros in front up to the given width. -/
def padded (width n : Nat) : List Char :=
  let ds := Nat.toDigits 10 n
  List.replicate (width - ds.length) '0' ++ ds

/-- Reads a run of digits, at least one and at most `width`. -/
def readDigits? (width : Nat) (cs : List Char) : Option (Nat × List Char) :=
  match (cs.take width).takeWhile Decimal.isDigit with
  | [] => none
  | ds => some (Decimal.ofDigits ds, cs.drop ds.length)

/-- Reads a numeric field after blanks. -/
def readField? (width : Nat) (cs : List Char) : Option (Nat × List Char) :=
  readDigits? width (Text.skipBlanks cs)

/-- Reads the character `mark` after blanks. -/
def readMark? (mark : Char) (cs : List Char) : Option (List Char) :=
  match Text.skipBlanks cs with
  | c :: rest => if c = mark then some rest else none
  | [] => none

/-! ## Days -/

/-- Whether a year has a twenty-ninth of February. -/
def isLeapYear (year : Int) : Bool :=
  year % 4 == 0 && (year % 100 != 0 || year % 400 == 0)

/-- The number of days of a month; none for a month that does not exist. -/
def daysInMonth (year : Int) : Nat → Nat
  | 1 => 31
  | 2 => if isLeapYear year then 29 else 28
  | 3 => 31
  | 4 => 30
  | 5 => 31
  | 6 => 30
  | 7 => 31
  | 8 => 31
  | 9 => 30
  | 10 => 31
  | 11 => 30
  | 12 => 31
  | _ => 0

/-- A day of the calendar. -/
structure Date where
  year : Int
  month : Nat
  day : Nat
  year_ge : -262143 ≤ year
  year_le : year ≤ 262142
  day_pos : 1 ≤ day
  day_le : day ≤ daysInMonth year month
  deriving DecidableEq

namespace Date

/-- The date with the given fields, if there is one. -/
def ofFields? (year : Int) (month day : Nat) : Option Date :=
  if h : (-262143 ≤ year ∧ year ≤ 262142) ∧ 1 ≤ day ∧ day ≤ daysInMonth year month then
    some ⟨year, month, day, h.1.1, h.1.2, h.2.1, h.2.2⟩
  else none

/-- A year: four digits from 0 to 9999, otherwise signed with at least four digits. -/
def yearText (year : Int) : List Char :=
  if 0 ≤ year ∧ year ≤ 9999 then padded 4 year.toNat
  else (if year < 0 then '-' else '+') :: padded 4 year.natAbs

/-- Year, month and day divided by hyphens. -/
def chars (d : Date) : List Char :=
  yearText d.year ++ '-' :: padded 2 d.month ++ '-' :: padded 2 d.day

/-- The text of a date. -/
def text (d : Date) : String :=
  String.ofList d.chars

/-- Reads a year after blanks: up to four digits, or a sign and any number of digits. -/
def readYear? (cs : List Char) : Option (Int × List Char) :=
  match Text.skipBlanks cs with
  | '-' :: rest => (readDigits? rest.length rest).map fun (n, r) => (-(n : Int), r)
  | '+' :: rest => (readDigits? rest.length rest).map fun (n, r) => ((n : Int), r)
  | rest => (readDigits? 4 rest).map fun (n, r) => ((n : Int), r)

/-- Reads a date at the front of a text. -/
def scan? (cs : List Char) : Option (Date × List Char) := do
  let (year, cs) ← readYear? cs
  let cs ← readMark? '-' cs
  let (month, cs) ← readField? 2 cs
  let cs ← readMark? '-' cs
  let (day, cs) ← readField? 2 cs
  let date ← ofFields? year month day
  return (date, cs)

/-- Reads a date that is the whole text, up to blanks. -/
def read? (s : String) : Option Date := do
  let (date, cs) ← scan? s.toList
  if Text.skipBlanks cs ≠ [] then none
  return date

end Date
end SqlForms.Calendar
