import SqlForms.Fragments
import SqlForms.Value.Literal

/-! # Templates

    A template is a statement with slots and the configuration it was made
    under.  It can be filled with one value per slot, or written with the
    numbered parameters `$1`, `$2`, … of a database driver. -/

namespace SqlForms

/-- A statement with slots. -/
structure Template where
  fragments : Fragments
  config : Config
  deriving DecidableEq

namespace Template

/-- The slots in order. -/
def slots (t : Template) : List Placeholder :=
  t.fragments.slots

/-- The number of slots. -/
def slotCount (t : Template) : Nat :=
  t.slots.length

/-- Fragments with values in their slots, in order. -/
def fillParts (d : Dialect) : List Fragment → List Value → Except Error String
  | [], _ => .ok ""
  | .text s :: fs, vs => do
      let rest ← fillParts d fs vs
      return s ++ rest
  | .slot _ :: fs, v :: vs => do
      let first ← v.sql d
      let rest ← fillParts d fs vs
      return first ++ rest
  | .slot _ :: fs, [] => fillParts d fs []

/-- The statement with one value for each slot. -/
def fill (t : Template) (values : List Value) : Except Error String :=
  if values.length = t.slotCount then fillParts t.config.strings t.fragments.parts values
  else .error (.arity "template" (.exactly t.slotCount) values.length)

/-- Fragments with their slots numbered from `n`. -/
def numberParts (n : Nat) : List Fragment → String
  | [] => ""
  | .text s :: fs => s ++ numberParts n fs
  | .slot _ :: fs => "$" ++ toString n ++ numberParts (n + 1) fs

/-- The statement with numbered parameters. -/
def numbered (t : Template) : String :=
  numberParts 1 t.fragments.parts

end Template

/-- A compiled tree: finished text, or a template when values are still to come. -/
inductive Compiled where
  | sql (text : String)
  | template (t : Template)
  deriving DecidableEq

namespace Compiled

/-- A template without slots is finished text. -/
def ofTemplate (t : Template) : Compiled :=
  match t.fragments.sql? with
  | some text => .sql text
  | none => .template t

/-- The statement with one value for each slot; finished text takes none. -/
def fill : Compiled → List Value → Except Error String
  | .sql text, [] => .ok text
  | .sql _, values => .error (.arity "template" (.exactly 0) values.length)
  | .template t, values => t.fill values

/-- The finished text, if it is one. -/
def sql? : Compiled → Option String
  | .sql text => some text
  | .template _ => none

/-- The statement with numbered parameters. -/
def numbered : Compiled → String
  | .sql text => text
  | .template t => t.numbered

end Compiled
end SqlForms
