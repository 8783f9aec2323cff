/-! # Intervals

    A length of time in seven units that are not converted into one
    another.  Its text lists the units that are not zero. -/

namespace SqlForms.Calendar

/-- A length of time, unit by unit. -/
structure Interval where
  years : Int64 := 0
  months : Int64 := 0
  days : Int64 := 0
  hours : Int64 := 0
  minutes : Int64 := 0
  seconds : Int64 := 0
  milliseconds : Int64 := 0
  deriving DecidableEq

namespace Interval

/-- The units with their names, from the longest to the shortest. -/
def components (i : Interval) : List (String × Int64) :=
  [("years", i.years), ("months", i.months), ("days", i.days), ("hours", i.hours),
   ("minutes", i.minutes), ("seconds", i.seconds), ("milliseconds", i.milliseconds)]

/-- The interval with the given amounts, in the order of `components`. -/
def ofAmounts : List Int64 → Interval
  | [] => {}
  | years :: rest =>
      { years
        months := rest.getD 0 0
        days := rest.getD 1 0
        hours := rest.getD 2 0
        minutes := rest.getD 3 0
        seconds := rest.getD 4 0
        milliseconds := rest.getD 5 0 }

/-- One component, as `3 days`. -/
def componentText (c : String × Int64) : String :=
  toString c.2.toInt ++ " " ++ c.1

/-- The components that are not zero; nothing at all is zero milliseconds. -/
def text (i : Interval) : String :=
  match i.components.filter (·.2 != 0) with
  | [] => "0 milliseconds"
  | parts => " ".intercalate (parts.map componentText)

end Interval
end SqlForms.Calendar
