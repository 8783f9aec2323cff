import SqlForms.Calendar.Time
import SqlForms.Calendar.Interval
import SqlForms.Number.Text
import SqlForms.Text.Printable

/-! # Values

    The constants that can stand in a statement.  `describe` is the
    structural text of a value that messages show: the name of its kind and
    its contents. -/

namespace SqlForms

/-- A constant. -/
inductive Value where
  | null
  | bool (b : Bool)
  | int (n : Int64)
  | float (x : Binary64)
  /-- A decimal number of any length, as text. -/
  | numeric (number : String)
  | text (s : String)
  | bytes (bytes : List UInt8)
  | date (d : Calendar.Date)
  | time (t : Calendar.Time)
  | timestamp (t : Calendar.Timestamp)
  | interval (i : Calendar.Interval)
  | array (items : List Value)
  /-- Text that goes into the statement as it is. -/
  | raw (sql : String)

/-- The structural text of an interval, with all its units. -/
def Calendar.Interval.describe (i : Calendar.Interval) : String :=
  "Interval \x7b " ++
    ", ".intercalate (i.components.map fun c => c.1 ++ ": " ++ toString c.2.toInt) ++ " \x7d"

namespace Value

/-- The word of a truth value. -/
def boolText (b : Bool) : String :=
  if b then "true" else "false"

mutual

/-- The structural text of a value. -/
def describe : Value → String
  | .null => "Null"
  | .bool b => "Bool(" ++ boolText b ++ ")"
  | .int n => "Int(" ++ toString n.toInt ++ ")"
  | .float x => "Float(" ++ NumberStyle.marked.write x ++ ")"
  | .numeric n => "Numeric(" ++ Text.quoted n ++ ")"
  | .text s => "Text(" ++ Text.quoted s ++ ")"
  | .bytes bs => "Bytes([" ++ ", ".intercalate (bs.map fun b => toString b.toNat) ++ "])"
  | .date d => "Date(" ++ d.text ++ ")"
  | .time t => "Time(" ++ t.text ++ ")"
  | .timestamp t => "Timestamp(" ++ t.text ++ ")"
  | .interval i => "Interval(" ++ i.describe ++ ")"
  | .array items => "Array([" ++ ", ".intercalate (describeAll items) ++ "])"
  | .raw sql => "Raw(" ++ Text.quoted sql ++ ")"

/-- The structural texts of values. -/
def describeAll : List Value → List String
  | [] => []
  | v :: vs => describe v :: describeAll vs

end

end Value
end SqlForms
