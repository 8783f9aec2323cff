import SqlForms.Expr.Basic
import SqlForms.Json.Reader

/-! # Trees as JSON

    A node is an object with one member, named for its kind.  An operation
    and a placeholder are objects inside it, or arrays of their fields in
    order; members that are not fields are passed over, a field given twice
    is refused.  A number is kept as a number, a date and a time as texts.

    A double that is not finite has no JSON number and is encoded as null.
    A decoder may be asked to admit names for these and for negative
    zero. -/

namespace SqlForms

/-! ## Encoding -/

namespace Calendar.Interval

/-- An interval with all its units. -/
def toJson (i : Interval) : Json :=
  .object (i.components.map fun c => (c.1, .number (.ofInt64 c.2)))

end Calendar.Interval

namespace Value

/-- A double as a number, or null when it is not finite. -/
def floatToJson (x : Binary64) : Json :=
  if h : x.isFinite = true then .number (.float x h) else .null

mutual

/-- The JSON form of a value. -/
def toJson : Value → Json
  | .null => .string "null"
  | .bool b => .object [("bool", .bool b)]
  | .int n => .object [("int", .number (.ofInt64 n))]
  | .float x => .object [("float", floatToJson x)]
  | .numeric n => .object [("numeric", .string n)]
  | .text s => .object [("text", .string s)]
  | .bytes bs => .object [("bytes", .array (bs.map fun b => .number (.ofByte b)))]
  | .date d => .object [("date", .string d.text)]
  | .time t => .object [("time", .string t.text)]
  | .timestamp t => .object [("timestamp", .string t.text)]
  | .interval i => .object [("interval", i.toJson)]
  | .array items => .object [("array", .array (toJsonAll items))]
  | .raw sql => .object [("raw", .string sql)]

/-- The JSON forms of values. -/
def toJsonAll : List Value → List Json
  | [] => []
  | v :: vs => toJson v :: toJsonAll vs

end

end Value

namespace Expr

mutual

/-- The JSON form of a tree. -/
def toJson : Expr → Json
  | .literal v => .object [("literal", v.toJson)]
  | .identifier name => .object [("identifier", .string name)]
  | .operation tag operands =>
      .object [("operation",
        .object [("tag", .string tag), ("operands", .array (toJsonAll operands))])]
  | .quoted v => .object [("quoted", v.toJson)]
  | .placeholder p =>
      .object [("placeholder", .object [("name", (p.name.map Json.string).getD .null)])]
  | .keyword name => .object [("keyword", .string name)]
  | .list items => .object [("list", .array (toJsonAll items))]

/-- The JSON forms of trees. -/
def toJsonAll : List Expr → List Json
  | [] => []
  | e :: es => toJson e :: toJsonAll es

end

end Expr

/-! ## Decoding -/

/-- Which texts stand for doubles in place of a number. -/
inductive FloatNames where
  /-- None do. -/
  | numbersOnly
  /-- The infinities, a NaN and negative zero have names. -/
  | named
  deriving DecidableEq, Repr

/-- The double of a name. -/
def FloatNames.read? : FloatNames → String → Option Binary64
  | .named, "nan" => some .nan
  | .named, "inf" => some (.infinity false)
  | .named, "-inf" => some (.infinity true)
  | .named, "-0" => some (.zero true)
  | _, _ => none

/-- The value of a field that may be given at most once: missing, found, or given twice. -/
def field? (key : String) (members : List (String × Json)) : Option (Option Json) :=
  match members.filter (·.1 == key) with
  | [] => some none
  | [(_, j)] => some (some j)
  | _ => none

/-- The text of a JSON string. -/
def Json.text? : Json → Option String
  | .string s => some s
  | _ => none

/-- The signed word of a JSON number. -/
def Json.int64? : Json → Option Int64
  | .number n => n.toInt64?
  | _ => none

namespace Calendar.Interval

/-- An interval from an object of its units, where a missing one is zero, or from an array of at
    most seven amounts. -/
def ofJson? : Json → Option Interval
  | .object members => do
      let amounts ← ({} : Interval).components.mapM fun c => do
        match ← field? c.1 members with
        | none => return 0
        | some j => j.int64?
      return ofAmounts amounts
  | .array items => do
      if items.length > 7 then none
      return ofAmounts (← items.mapM Json.int64?)
  | _ => none

end Calendar.Interval

namespace Value

/-- A byte from a JSON number. -/
def byteOfJson? : Json → Option UInt8
  | .number n => n.toByte?
  | _ => none

/-- Bytes from a JSON array. -/
def bytesOfJson? : Json → Option (List UInt8)
  | .array items => items.mapM byteOfJson?
  | _ => none

/-- The value of every kind but an array. -/
def scalarOfJson? (names : FloatNames) (kind : String) (content : Json) : Option Value :=
  match kind, content with
  | "null", .null => some .null
  | "bool", .bool b => some (.bool b)
  | "int", .number n => n.toInt64?.map .int
  | "float", .number n => some (.float n.toBinary64)
  | "float", .string s => (names.read? s).map .float
  | "numeric", .string s => some (.numeric s)
  | "text", .string s => some (.text s)
  | "bytes", content => (bytesOfJson? content).map .bytes
  | "date", .string s => (Calendar.Date.read? s).map .date
  | "time", .string s => (Calendar.Time.read? s).map .time
  | "timestamp", .string s => (Calendar.Timestamp.read? s).map .timestamp
  | "interval", content => (Calendar.Interval.ofJson? content).map .interval
  | "raw", .string s => some (.raw s)
  | _, _ => none

mutual

/-- The value of a JSON form. -/
def ofJsonForm? (names : FloatNames) : Json → Option Value
  | .string "null" => some .null
  | .object [("array", .array items)] => (ofJsonForms? names items).map .array
  | .object [(kind, content)] => scalarOfJson? names kind content
  | _ => none

/-- The values of JSON forms. -/
def ofJsonForms? (names : FloatNames) : List Json → Option (List Value)
  | [] => some []
  | j :: js => do
      let v ← ofJsonForm? names j
      let vs ← ofJsonForms? names js
      return v :: vs

end

end Value

/-- A placeholder from an object or an array of its one field. -/
def Placeholder.ofJson? : Json → Option Placeholder
  | .object members => do
      match ← field? "name" members with
      | none => return {}
      | some .null => return {}
      | some j => return { name := some (← j.text?) }
  | .array [.null] => some {}
  | .array [.string name] => some { name := some name }
  | _ => none

namespace Expr

mutual

/-- The tree of a JSON form. -/
def ofJson? (names : FloatNames) : Json → Option Expr
  | .object [("literal", j)] => (Value.ofJsonForm? names j).map .literal
  | .object [("quoted", j)] => (Value.ofJsonForm? names j).map .quoted
  | .object [("identifier", .string s)] => some (.identifier s)
  | .object [("keyword", .string s)] => some (.keyword s)
  | .object [("placeholder", j)] => (Placeholder.ofJson? j).map .placeholder
  | .object [("list", .array items)] => (ofJsonAll? names items).map .list
  | .object [("operation", .array [.string tag, .array items])] =>
      (ofJsonAll? names items).map (.operation tag)
  | .object [("operation", .object members)] => do
      match ← field? "tag" members with
      | some (.string tag) => return .operation tag (← operandsOfJson? names members)
      | _ => none
  | _ => none

/-- The trees of JSON forms. -/
def ofJsonAll? (names : FloatNames) : List Json → Option (List Expr)
  | [] => some []
  | j :: js => do
      let e ← ofJson? names j
      let es ← ofJsonAll? names js
      return e :: es

/-- The operands among the members of an operation, given exactly once. -/
def operandsOfJson? (names : FloatNames) : List (String × Json) → Option (List Expr)
  | [] => none
  | (key, j) :: members =>
      if key = "operands" then
        match j with
        | .array items =>
            if members.any (·.1 == "operands") then none else ofJsonAll? names items
        | _ => none
      else operandsOfJson? names members

end

/-- The objects of a tree that are read for their fields only. -/
def jsonFields : Json.Fields
  | "operation" => some ["tag", "operands"]
  | "placeholder" => some ["name"]
  | "interval" => some (({} : Calendar.Interval).components.map (·.1))
  | _ => none

/-- Reads a tree from a JSON text. -/
def read? (s : String) : Option Expr := do
  let j ← Json.readFields? jsonFields (some Json.nestingLimit) s
  ofJson? .numbersOnly j

end Expr
end SqlForms
