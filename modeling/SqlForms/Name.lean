import SqlForms.Text.Classes
import SqlForms.Text.Lowercase

/-! # Names

    A symbolic name becomes an identifier in lower case.  Its segments,
    divided by dots, keep letters and numerals and have an underscore for
    anything else, so no name can leave its place in a statement.  The star
    and numbered parameters such as `$1` are written as they are. -/

namespace SqlForms.Name

/-- Whether a name is a dollar sign and one or more ASCII digits. -/
def isParameter : List Char → Bool
  | '$' :: d :: ds => (d :: ds).all fun c => decide ('0' ≤ c) && decide (c ≤ '9')
  | _ => false

/-- The segments of a name, divided by dots. -/
def segments : List Char → List (List Char)
  | [] => [[]]
  | c :: cs =>
      if c = '.' then [] :: segments cs
      else match segments cs with
        | [] => [[c]]
        | s :: ss => (c :: s) :: ss

/-- A character that may stand in an identifier, or the underscore in its place. -/
def safeChar (c : Char) : Char :=
  if Text.isAlphabetic c || Text.isNumeral c then c else '_'

/-- A segment as an identifier, in double quotes if asked for; a star stands alone. -/
def segmentChars (quote : Bool) (s : List Char) : List Char :=
  if s = ['*'] then s
  else if quote then '"' :: s.map safeChar ++ ['"']
  else s.map safeChar

/-- The identifier of a name, as characters. -/
def chars (quote : Bool) (cs : List Char) : List Char :=
  if cs = ['*'] ∨ isParameter cs then cs
  else ['.'].intercalate ((segments (Text.lowercase cs)).map (segmentChars quote))

/-- The identifier of a name. -/
def write (quote : Bool) (n : String) : String :=
  String.ofList (chars quote n.toList)

end SqlForms.Name
