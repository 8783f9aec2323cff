import SqlForms.Value.Convert

/-! # Values from texts

    A text can be read as a value once it is known what type it is a text
    of.  Integers take an optional sign, which an unsigned type restricts to
    plus, and have to fit their word. -/

namespace SqlForms

/-- A type whose elements can be read from a text. -/
inductive ScalarType where
  | bool
  | int8
  | int16
  | int32
  | int64
  | uint8
  | uint16
  | uint32
  | uint64
  | single
  | double
  | text
  | bytes
  | date
  | time
  | timestamp
  /-- The word `none` stands for a missing element. -/
  | optional (type : ScalarType)
  deriving DecidableEq, Repr

namespace ScalarType

/-- A natural number: decimal digits, at least one. -/
def natural? (cs : List Char) : Option Nat :=
  if cs ≠ [] ∧ cs.all Decimal.isDigit then some (Decimal.ofDigits cs) else none

/-- An integer with an optional sign, within bounds. -/
def signed? (bits : Nat) (s : String) : Option Int := do
  let n ← match s.toList with
    | '-' :: cs => (natural? cs).map fun n => -Int.ofNat n
    | '+' :: cs => (natural? cs).map Int.ofNat
    | cs => (natural? cs).map Int.ofNat
  if -Int.pow 2 (bits - 1) ≤ n ∧ n < Int.pow 2 (bits - 1) then some n else none

/-- A natural number with an optional plus, within bounds. -/
def unsigned? (bits : Nat) (s : String) : Option Nat := do
  let n ← match s.toList with
    | '+' :: cs => natural? cs
    | cs => natural? cs
  if n < Nat.pow 2 bits then some n else none

/-- A truth value by its name. -/
def truth? : String → Option Bool
  | "true" => some true
  | "false" => some false
  | _ => none

/-- The value of a text of a type. -/
def read? : ScalarType → String → Option Value
  | .bool, s => (truth? s).map toValue
  | .int8, s => (signed? 8 s).map fun n => toValue (Int8.ofInt n)
  | .int16, s => (signed? 16 s).map fun n => toValue (Int16.ofInt n)
  | .int32, s => (signed? 32 s).map fun n => toValue (Int32.ofInt n)
  | .int64, s => (signed? 64 s).map fun n => toValue (Int64.ofInt n)
  | .uint8, s => (unsigned? 8 s).map fun n => toValue (UInt8.ofNat n)
  | .uint16, s => (unsigned? 16 s).map fun n => toValue (UInt16.ofNat n)
  | .uint32, s => (unsigned? 32 s).map fun n => toValue (UInt32.ofNat n)
  | .uint64, s => (unsigned? 64 s).map fun n => toValue (UInt64.ofNat n)
  | .single, s => (Binary64.read? Decimal.toSingle s).map toValue
  | .double, s => (Binary64.read? Decimal.toBinary64 s).map toValue
  | .text, s => some (toValue s)
  | .bytes, s => some (toValue s.toUTF8.toList)
  | .date, s => (Calendar.Date.read? s).map toValue
  | .time, s => (Calendar.Time.read? s).map toValue
  | .timestamp, s => (Calendar.Timestamp.read? s).map toValue
  | .optional type, s =>
      if s = "none" then some (toValue (none : Option Value)) else type.read? s

end ScalarType
end SqlForms
