import SqlForms.Number.Text
import SqlForms.Text.Printable

/-! # JSON values

    A number is either an integer of a signed or unsigned 64-bit word or a
    finite double, and stays what its text made it.  Objects keep their
    members as written; the two readings of repeated keys (refuse them, or
    let the last one win) are made where an object is used. -/

namespace SqlForms

/-- A JSON number. -/
inductive JsonNumber where
  | integer (n : Int) (ge : -0x8000000000000000 ≤ n) (lt : n < 0x10000000000000000)
  | float (x : Binary64) (finite : x.isFinite = true)
  deriving DecidableEq

/-- A JSON value. -/
inductive Json where
  | null
  | bool (b : Bool)
  | number (n : JsonNumber)
  | string (s : String)
  | array (items : List Json)
  | object (members : List (String × Json))

namespace JsonNumber

/-- The integer of a word, signed or unsigned. -/
def ofInt? (n : Int) : Option JsonNumber :=
  if h : -0x8000000000000000 ≤ n ∧ n < 0x10000000000000000 then some (.integer n h.1 h.2) else none

/-- The number of a signed word. -/
def ofInt64 (n : Int64) : JsonNumber :=
  .integer n.toInt (Int64.le_toInt n)
    (Int.lt_trans (Int64.toInt_lt n) (by decide))

/-- The number of a natural below `2 ^ 64`. -/
def ofNat (n : Nat) (lt : n < 0x10000000000000000) : JsonNumber :=
  .integer n (by omega) (by omega)

/-- The number of a byte. -/
def ofByte (b : UInt8) : JsonNumber :=
  ofNat b.toNat (Nat.lt_trans b.toNat_lt (by decide))

/-- The signed word of an integer, if it fits. -/
def toInt64? : JsonNumber → Option Int64
  | .integer n _ _ => if n < 0x8000000000000000 then some (Int64.ofInt n) else none
  | .float _ _ => none

/-- The byte of an integer, if it fits. -/
def toByte? : JsonNumber → Option UInt8
  | .integer n _ _ => if 0 ≤ n ∧ n < 256 then some (UInt8.ofNat n.toNat) else none
  | .float _ _ => none

/-- The nearest double. -/
def toBinary64 : JsonNumber → Binary64
  | .integer n _ _ => Decimal.toBinary64 (decide (n < 0)) ⟨n.natAbs, 0⟩
  | .float x _ => x

/-- Numbers in JSON are positional from `0.00001` up to below `10 ^ 16`; a float keeps its point, a
    tie goes to the even digit, and an exponent carries its sign. -/
def style : NumberStyle := ⟨true, some (-4, 16), .toEven, ['+']⟩

/-- The text of a number. -/
def text : JsonNumber → String
  | .integer n _ _ => toString n
  | .float x _ => style.write x

end JsonNumber

/-! ## Members -/

/-- Puts a member into a list sorted by key; it replaces one of the same key. -/
def insertMember {α : Type} (key : String) (value : α) : List (String × α) → List (String × α)
  | [] => [(key, value)]
  | (k, v) :: rest =>
      if key < k then (key, value) :: (k, v) :: rest
      else if k < key then (k, v) :: insertMember key value rest
      else (key, value) :: rest

/-- The members sorted by key, the last of equal keys winning. -/
def sortMembers {α : Type} (members : List (String × α)) : List (String × α) :=
  members.foldl (fun sorted m => insertMember m.1 m.2 sorted) []

namespace Json

/-- The value of the first member with the given key. -/
def member? (key : String) : Json → Option Json
  | .object members => members.lookup key
  | _ => none

mutual

/-- The structural text of a value, as messages show it. -/
def describe : Json → String
  | .null => "Null"
  | .bool b => "Bool(" ++ toString b ++ ")"
  | .number n => "Number(" ++ n.text ++ ")"
  | .string s => "String(" ++ Text.quoted s ++ ")"
  | .array items => "Array [" ++ ", ".intercalate (describeItems items) ++ "]"
  | .object members =>
      "Object \x7b" ++ ", ".intercalate ((sortMembers (describeMembers members)).map fun m =>
        Text.quoted m.1 ++ ": " ++ m.2) ++ "\x7d"

/-- The structural texts of the items of an array. -/
def describeItems : List Json → List String
  | [] => []
  | item :: items => describe item :: describeItems items

/-- The structural texts of the members of an object. -/
def describeMembers : List (String × Json) → List (String × String)
  | [] => []
  | (key, value) :: members => (key, describe value) :: describeMembers members

end

end Json
end SqlForms
