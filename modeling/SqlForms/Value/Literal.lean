import SqlForms.Dialect
import SqlForms.Error

/-! # Literals

    A value is written as a text and a way to put that text into a
    statement: as it is, as a string literal, or as a string literal cast to
    a type.  Only a number that is not one fails: a double that is not
    finite, or a decimal whose text is none. -/

namespace SqlForms

/-- How the text of a value goes into a statement. -/
inductive Embedding where
  | verbatim
  | string
  | typed (type : String)
  deriving DecidableEq, Repr

/-- The text of a value with its embedding. -/
structure Literal where
  text : String
  embedding : Embedding
  deriving DecidableEq, Repr

/-- The SQL of a literal. -/
def Literal.sql (d : Dialect) (l : Literal) : String :=
  match l.embedding with
  | .verbatim => l.text
  | .string => d.quote l.text
  | .typed type => d.quote l.text ++ "::" ++ type

/-- Whether a text is a decimal number: an optional sign, then digits with an optional point and
    optional digits after it, or a point and at least one digit. -/
def isDecimalNumber (s : String) : Bool :=
  let cs := match s.toList with
    | '-' :: cs => cs
    | '+' :: cs => cs
    | cs => cs
  let whole := cs.takeWhile Decimal.isDigit
  match cs.dropWhile Decimal.isDigit with
  | [] => !whole.isEmpty
  | '.' :: places => places.all Decimal.isDigit && !(whole.isEmpty && places.isEmpty)
  | _ => false

namespace Value

mutual

/-- The literal of a value.  An array is written item by item, and an empty one as the string of
    an empty array. -/
def literal (d : Dialect) : Value → Except Error Literal
  | .null => .ok ⟨"NULL", .verbatim⟩
  | .bool b => .ok ⟨boolText b, .verbatim⟩
  | .int n => .ok ⟨toString n.toInt, .verbatim⟩
  | .float x =>
      if x.isFinite then .ok ⟨NumberStyle.plain.write x, .verbatim⟩ else .error (.notFinite x)
  | .numeric n => if isDecimalNumber n then .ok ⟨n, .verbatim⟩ else .error (.notDecimal n)
  | .text s => .ok ⟨s, .string⟩
  | .bytes bs => .ok ⟨byteText bs, .string⟩
  | .date t => .ok ⟨t.text, .typed "date"⟩
  | .time t => .ok ⟨String.ofList t.sqlChars, .typed "time"⟩
  | .timestamp t => .ok ⟨String.ofList t.sqlChars, .typed "timestamp"⟩
  | .interval i => .ok ⟨i.text, .typed "interval"⟩
  | .array [] => .ok ⟨"\x7b\x7d", .string⟩
  | .array (item :: items) => do
      let first ← literal d item
      let rest ← literals d items
      return ⟨"ARRAY[" ++ ", ".intercalate (first.sql d :: rest) ++ "]", .verbatim⟩
  | .raw sql => .ok ⟨sql, .verbatim⟩

/-- The SQL of values, up to the first that has none. -/
def literals (d : Dialect) : List Value → Except Error (List String)
  | [] => .ok []
  | v :: vs => do
      let first ← literal d v
      let rest ← literals d vs
      return first.sql d :: rest

end

/-- The SQL of a value. -/
def sql (d : Dialect) (v : Value) : Except Error String :=
  (v.literal d).map (·.sql d)

end Value
end SqlForms
