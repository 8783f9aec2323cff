import SqlForms.Expr.Basic

/-! # Fragments

    A statement under way is a sequence of texts and slots.  Text is merged
    into the text before it and empty text is dropped, so a sequence never
    holds an empty text or two texts in a row: what it denotes, characters
    and slots in order, determines it. -/

namespace SqlForms

/-- A part of a statement: fixed text, or a value that comes later. -/
inductive Fragment where
  | text (s : String)
  | slot (p : Placeholder)
  deriving DecidableEq, Repr

/-- A sequence of fragments. -/
structure Fragments where
  parts : List Fragment := []
  deriving DecidableEq, Repr, Inhabited

/-- Adds text at the end of a sequence, into its last text if it ends with one. -/
def addText (s : String) : List Fragment → List Fragment
  | [] => [.text s]
  | [.text t] => [.text (t ++ s)]
  | f :: fs => f :: addText s fs

namespace Fragments

/-- The empty sequence. -/
def empty : Fragments := {}

/-- Adds text; empty text changes nothing. -/
def pushText (f : Fragments) (s : String) : Fragments :=
  if s = "" then f else ⟨addText s f.parts⟩

/-- Adds a slot. -/
def pushSlot (f : Fragments) (p : Placeholder) : Fragments :=
  ⟨f.parts ++ [.slot p]⟩

/-- Adds one fragment. -/
def push (f : Fragments) : Fragment → Fragments
  | .text s => f.pushText s
  | .slot p => f.pushSlot p

/-- Adds the fragments of another sequence. -/
def append (f g : Fragments) : Fragments :=
  g.parts.foldl push f

instance : Append Fragments := ⟨append⟩

/-- The sequence of one text. -/
def ofText (s : String) : Fragments :=
  empty.pushText s

/-- The slot of a fragment. -/
def slot? : Fragment → Option Placeholder
  | .slot p => some p
  | .text _ => none

/-- The slots in order. -/
def slots (f : Fragments) : List Placeholder :=
  f.parts.filterMap slot?

/-- The number of slots. -/
def slotCount (f : Fragments) : Nat :=
  f.slots.length

/-- Whether there is no slot. -/
def isStatic (f : Fragments) : Bool :=
  f.slotCount == 0

/-- The text of fragments up to the end, if no slot comes first. -/
def textOf? : List Fragment → Option String
  | [] => some ""
  | .text s :: fs => (textOf? fs).map (s ++ ·)
  | .slot _ :: _ => none

/-- The whole text, if there is no slot. -/
def sql? (f : Fragments) : Option String :=
  textOf? f.parts

end Fragments
end SqlForms
