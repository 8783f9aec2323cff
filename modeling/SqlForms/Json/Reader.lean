import SqlForms.Json.Token

/-! # Reading JSON

    A pass over the tokens keeps the containers that are still open,
    innermost first, and what may come next.  How deep containers may nest
    is a parameter of the reader.

    So is what an object is read for.  The objects that stand under certain
    keys have a fixed set of fields, and their other members are passed
    over: such a member has to be well formed, but it may be nested to any
    depth and may hold numbers and strings without a value. -/

namespace SqlForms.Json

/-- What becomes of the values that are being read. -/
inductive Mode where
  /-- They are kept; so many more containers may be opened, or any number. -/
  | keep (room : Option Nat)
  /-- They are inside a member that is passed over. -/
  | pass

/-- A container that is still open, with what it holds so far, last first. -/
inductive Frame where
  | array (items : List Json)
  | object (members : List (String × Json))
  /-- An object that has read a key and waits for its value. -/
  | member (members : List (String × Json)) (key : String)
  /-- An object that waits for the end of a member that is passed over, and the room it has. -/
  | passing (members : List (String × Json)) (room : Option Nat)

/-- What may come next. -/
inductive Expect where
  /-- A value. -/
  | value
  /-- The first item of an array, or its end. -/
  | firstItem
  /-- The first key of an object, or its end. -/
  | firstKey
  /-- A key. -/
  | key
  /-- The colon after a key. -/
  | colon
  /-- A comma, or the end of the container. -/
  | next

/-- How far reading has come. -/
inductive Progress where
  /-- Inside the value: what becomes of values, the containers that are open, and what may come
      next. -/
  | inside (mode : Mode) (frames : List Frame) (expect : Expect)
  /-- After the value. -/
  | done (j : Json)

/-- The fields of the objects that stand under a key; none when all their members are read. -/
abbrev Fields := String → Option (List String)

/-- Whether the innermost object is read for a member of this key.  The object stands under the key
    of the container around it. -/
def Fields.keeps (fields : Fields) (key : String) : List Frame → Bool
  | .member _ outer :: _ => ((fields outer).map (·.contains key)).getD true
  | _ => true

/-- The mode inside one more container, if there is room for it. -/
def Mode.enter? : Mode → Option Mode
  | .keep none => some (.keep none)
  | .keep (some (n + 1)) => some (.keep (some n))
  | .keep (some 0) => none
  | .pass => some .pass

/-- The mode outside a container that ends. -/
def Mode.leave : Mode → Mode
  | .keep room => .keep (room.map (· + 1))
  | .pass => .pass

/-- The content of a token.  One without content is refused where values are kept, and stands for
    anything where they are passed over. -/
def Mode.content? {α : Type} (anything : α) : Mode → Option α → Option α
  | _, some a => some a
  | .pass, none => some anything
  | .keep _, none => none

namespace Progress

/-- A finished value goes into the innermost container, or ends the member that is passed over;
    outside every container it is the result. -/
def place? (mode : Mode) (j : Json) : List Frame → Option Progress
  | [] => some (.done j)
  | .array items :: outer => some (.inside mode (.array (j :: items) :: outer) .next)
  | .member members key :: outer =>
      some (.inside mode (.object ((key, j) :: members) :: outer) .next)
  | .passing members room :: outer => some (.inside (.keep room) (.object members :: outer) .next)
  | .object _ :: _ => none

/-- Opens a container, if there is room for one more. -/
def enter? (mode : Mode) (frames : List Frame) (frame : Frame) (expect : Expect) :
    Option Progress :=
  mode.enter?.map fun mode => .inside mode (frame :: frames) expect

/-- Closes the innermost container. -/
def leave? (mode : Mode) : List Frame → Option Progress
  | .array items :: outer => place? mode.leave (.array items.reverse) outer
  | .object members :: outer => place? mode.leave (.object members.reverse) outer
  | _ => none

/-- Reads the start of a value, or a scalar as a whole. -/
def value? (mode : Mode) (frames : List Frame) : JsonToken → Option Progress
  | .scalar j => do place? mode (← mode.content? .null j) frames
  | .text s => do place? mode (.string (← mode.content? "" s)) frames
  | .openArray => enter? mode frames (.array []) .firstItem
  | .openObject => enter? mode frames (.object []) .firstKey
  | _ => none

/-- Reads a key of the innermost container, and settles whether its member is passed over. -/
def key? (fields : Fields) (mode : Mode) : List Frame → JsonToken → Option Progress
  | .object members :: outer, .text s => do
      let key ← mode.content? "" s
      match mode with
      | .keep room =>
          if fields.keeps key outer then
            return .inside mode (.member members key :: outer) .colon
          else return .inside .pass (.passing members room :: outer) .colon
      | .pass => return .inside mode (.member members key :: outer) .colon
  | _, _ => none

/-- One token further. -/
def step? (fields : Fields) : Progress → JsonToken → Option Progress
  | .done _, _ => none
  | .inside mode frames expect, token =>
      match expect, token, frames with
      | .firstItem, .closeArray, _ => leave? mode frames
      | .firstKey, .closeObject, _ => leave? mode frames
      | .next, .closeArray, .array _ :: _ => leave? mode frames
      | .next, .closeObject, .object _ :: _ => leave? mode frames
      | .next, .comma, .array _ :: _ => some (.inside mode frames .value)
      | .next, .comma, .object _ :: _ => some (.inside mode frames .key)
      | .colon, .colon, _ => some (.inside mode frames .value)
      | .firstKey, token, frames => key? fields mode frames token
      | .key, token, frames => key? fields mode frames token
      | .firstItem, token, frames => value? mode frames token
      | .value, token, frames => value? mode frames token
      | _, _, _ => none

/-- The value, if it is complete. -/
def finish? : Progress → Option Json
  | .done j => some j
  | .inside _ _ _ => none

end Progress

/-- Reads one value from a text for its fields, with containers nested at most `depth` deep. -/
def readFields? (fields : Fields) (depth : Option Nat) (s : String) : Option Json := do
  let tokens ← JsonToken.scan? s
  let p ← tokens.foldlM (Progress.step? fields) (.inside (.keep depth) [] .value)
  p.finish?

/-- Reads one value from a text with all its members. -/
def read? (depth : Option Nat) (s : String) : Option Json :=
  readFields? (fun _ => none) depth s

/-- How deep containers may nest in a text that comes from outside. -/
def nestingLimit : Nat := 127

end SqlForms.Json
