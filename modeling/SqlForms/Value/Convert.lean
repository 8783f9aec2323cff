import SqlForms.Error

/-! # Values from elsewhere

    Words, texts, numbers and dates are values as they stand; an optional
    one is null when it is missing.  An unsigned word too large for a signed
    one becomes a decimal number, so no integer loses a digit.

    A JSON value is a value too, unless an object occurs in it. -/

namespace SqlForms

/-- Types whose elements are values. -/
class ToValue (α : Type) where
  toValue : α → Value

export ToValue (toValue)

namespace Value

/-- An integer of a signed or unsigned word. -/
def ofInt (n : Int) : Value :=
  if -0x8000000000000000 ≤ n ∧ n < 0x8000000000000000 then .int (Int64.ofInt n)
  else .numeric (toString n)

/-- A list of values of one type, as an array. -/
def ofList {α : Type} [ToValue α] (items : List α) : Value :=
  .array (items.map toValue)

end Value

instance : ToValue Value := ⟨id⟩
instance : ToValue Bool := ⟨.bool⟩
instance : ToValue Int8 := ⟨fun n => .ofInt n.toInt⟩
instance : ToValue Int16 := ⟨fun n => .ofInt n.toInt⟩
instance : ToValue Int32 := ⟨fun n => .ofInt n.toInt⟩
instance : ToValue Int64 := ⟨.int⟩
instance : ToValue UInt8 := ⟨fun n => .ofInt n.toNat⟩
instance : ToValue UInt16 := ⟨fun n => .ofInt n.toNat⟩
instance : ToValue UInt32 := ⟨fun n => .ofInt n.toNat⟩
instance : ToValue UInt64 := ⟨fun n => .ofInt n.toNat⟩
instance : ToValue Binary64 := ⟨.float⟩
instance : ToValue String := ⟨.text⟩
instance : ToValue (List UInt8) := ⟨.bytes⟩
instance : ToValue Calendar.Date := ⟨.date⟩
instance : ToValue Calendar.Time := ⟨.time⟩
instance : ToValue Calendar.Timestamp := ⟨.timestamp⟩
instance : ToValue Calendar.Interval := ⟨.interval⟩
instance {α : Type} [ToValue α] : ToValue (Option α) := ⟨fun o => (o.map toValue).getD .null⟩

namespace Value

/-- The value of a JSON number. -/
def ofJsonNumber : JsonNumber → Value
  | .integer n _ _ => .ofInt n
  | .float x _ => .float x

mutual

/-- The value of a JSON value; the first object met from left to right is refused. -/
def ofJson : Json → Except Error Value
  | .null => .ok .null
  | .bool b => .ok (.bool b)
  | .number n => .ok (.ofJsonNumber n)
  | .string s => .ok (.text s)
  | .array items => return .array (← ofJsonItems items)
  | .object members => .error (.objectArgument (.object members))

/-- The values of the items of a JSON array. -/
def ofJsonItems : List Json → Except Error (List Value)
  | [] => .ok []
  | item :: items => do
      let v ← ofJson item
      let vs ← ofJsonItems items
      return v :: vs

end

end Value
end SqlForms
