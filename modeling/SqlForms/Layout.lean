import SqlForms.Dialect
import SqlForms.Error

/-! # Layouts

    An operator says what it writes without writing it: a layout is a
    sequence of pieces, each an atom or an operand to be written in its
    place.  Configuration and mode only come in when the atoms are written.
    A fault is an atom too, so the faults of a statement come in the order
    of its text.

    A form is a layout for every list of operands that only mentions what it
    can reach from them: the operands themselves and, through lists, the
    items inside them.  That is what makes writing a tree terminate. -/

namespace SqlForms

/-- What happens to a placeholder. -/
inductive Mode where
  /-- Every value is known: a placeholder is an error. -/
  | static
  /-- A placeholder becomes a slot. -/
  | deferred
  deriving DecidableEq, Repr, Inhabited

/-- What is written without looking further into the tree. -/
inductive Atom where
  /-- Fixed text. -/
  | text (s : String)
  /-- A name, as an identifier. -/
  | name (n : String)
  /-- A constant, as a literal. -/
  | literal (v : Value)
  /-- A value that comes later. -/
  | slot (p : Placeholder)
  /-- Text that depends on how the statement is written. -/
  | chosen (f : Config → Mode → String)
  /-- A fault: nothing can be written from here on. -/
  | refuse (e : Error)

/-- A piece of a layout: an atom, or an operand in its place. -/
inductive Piece where
  | atom (a : Atom)
  | part (e : Expr)

/-- What an operator writes, in order. -/
abbrev Layout := List Piece

/-- Fixed text. -/
abbrev Piece.text (s : String) : Piece := .atom (.text s)

/-- A fault. -/
abbrev Piece.refuse (e : Error) : Piece := .atom (.refuse e)

instance : Coe String Piece := ⟨Piece.text⟩

/-- Text that may have failed. -/
def Piece.ofExcept : Except Error String → Piece
  | .ok s => .text s
  | .error e => .refuse e

namespace Layout

/-- The layout of a fault. -/
def refuse (e : Error) : Layout := [.refuse e]

/-- A layout that may have failed before its first piece. -/
def ofExcept : Except Error Layout → Layout
  | .ok l => l
  | .error e => refuse e

/-- The wrong number of operands. -/
def arity (operator : String) (expected : Count) (operands : List Expr) : Layout :=
  refuse (.arity operator expected operands.length)

/-- Layouts with a text between each two. -/
def separated (separator : String) : List Layout → Layout
  | [] => []
  | [l] => l
  | l :: ls => l ++ .text separator :: separated separator ls

/-- Trees with a text between each two. -/
def joined (separator : String) : List Expr → Layout
  | [] => []
  | [e] => [.part e]
  | e :: es => .part e :: .text separator :: joined separator es

/-- A text and a tree after it, if there is one. -/
def leading (lead : String) : Option Expr → Layout
  | some e => [lead, .part e]
  | none => []

/-- A text and trees divided by commas after it, if they are there. -/
def leadingAll (lead : String) : Option (List Expr) → Layout
  | some es => lead :: joined ", " es
  | none => []

/-- Layouts one after the other. -/
def concat (ls : List Layout) : Layout :=
  ls.flatten

/-- Trees in parentheses divided by commas; no tree at all is written as null. -/
def parenthesized : List Expr → Layout
  | [] => ["(", "NULL", ")"]
  | es => concat [["("], joined ", " es, [")"]]

end Layout

/-! ## Reach -/

/-- The trees that can be reached from operands: the operands, and the items of lists reached. -/
inductive Reach (operands : List Expr) : Expr → Prop where
  | operand {e : Expr} : e ∈ operands → Reach operands e
  | item {items : List Expr} {e : Expr} :
      Reach operands (.list items) → e ∈ items → Reach operands e

namespace Reach

/-- What is reached is smaller than the operands together. -/
theorem sizeOf_lt {operands : List Expr} {e : Expr} (h : Reach operands e) :
    sizeOf e < sizeOf operands := by
  induction h with
  | operand hm => exact List.sizeOf_lt_of_mem hm
  | @item items e _ hm ih =>
      have := List.sizeOf_lt_of_mem hm
      simp only [Expr.list.sizeOf_spec] at ih
      omega

/-- What can be reached from some of the operands can be reached from all of them. -/
theorem mono {some_ all_ : List Expr} {e : Expr} (h : Reach some_ e)
    (sub : ∀ x ∈ some_, Reach all_ x) : Reach all_ e := by
  induction h with
  | operand hm => exact sub _ hm
  | item _ hm ih => exact .item ih hm

end Reach

/-- Whether every tree of a layout can be reached from the operands. -/
def Layout.Within (operands : List Expr) (l : Layout) : Prop :=
  ∀ e, .part e ∈ l → Reach operands e

namespace Layout

/-! ## What a layout mentions -/

/-- A fault mentions no tree. -/
@[simp] theorem part_mem_refuse {e : Expr} {x : Error} : ¬ (Piece.part e ∈ refuse x) := by
  simp [refuse]

/-- A wrong number of operands mentions none of them. -/
@[simp] theorem part_mem_arity {e : Expr} {operator : String} {c : Count} {es : List Expr} :
    ¬ (Piece.part e ∈ arity operator c es) := by
  simp [arity]

@[simp] private theorem part_ne_ofExcept {e : Expr} {x : Except Error String} :
    ¬ (Piece.part e = Piece.ofExcept x) := by
  cases x <;> simp [Piece.ofExcept]

/-- A joined row mentions its trees. -/
@[simp] theorem part_mem_joined {e : Expr} {separator : String} {es : List Expr} :
    Piece.part e ∈ joined separator es ↔ e ∈ es := by
  induction es with
  | nil => simp [joined]
  | cons x xs ih =>
      cases xs with
      | nil => simp [joined]
      | cons y ys => simp [joined, ih]

/-- Layouts in a row mention what each of them does. -/
@[simp] theorem part_mem_separated {e : Expr} {separator : String} {ls : List Layout} :
    Piece.part e ∈ separated separator ls ↔ ∃ l ∈ ls, Piece.part e ∈ l := by
  induction ls with
  | nil => simp [separated]
  | cons x xs ih =>
      cases xs with
      | nil => simp [separated]
      | cons y ys => simp [separated, ih]

@[simp] private theorem part_mem_leading {e : Expr} {lead : String} {o : Option Expr} :
    Piece.part e ∈ leading lead o ↔ o = some e := by
  cases o <;> simp [leading, eq_comm]

@[simp] private theorem part_mem_leadingAll {e : Expr} {lead : String} {o : Option (List Expr)} :
    Piece.part e ∈ leadingAll lead o ↔ ∃ es, o = some es ∧ e ∈ es := by
  cases o <;> simp [leadingAll]

/-- Layouts one after the other mention what each of them does. -/
@[simp] theorem part_mem_concat {e : Expr} {ls : List Layout} :
    Piece.part e ∈ concat ls ↔ ∃ l ∈ ls, Piece.part e ∈ l := by
  simp [concat]

/-- A row in parentheses mentions its trees. -/
@[simp] theorem part_mem_parenthesized {e : Expr} {es : List Expr} :
    Piece.part e ∈ parenthesized es ↔ e ∈ es := by
  cases es <;> simp [parenthesized]

/-- A layout that may have failed mentions what it mentions when it has not. -/
theorem within_ofExcept {operands : List Expr} {x : Except Error Layout}
    (h : ∀ l, x = .ok l → Within operands l) : Within operands (ofExcept x) := by
  cases x with
  | ok l => exact h l rfl
  | error e => intro t ht; simp [ofExcept] at ht

end Layout

/-! ## Forms -/

/-- A layout for every list of operands, made of what can be reached from them. -/
structure Form where
  layout : List Expr → Layout
  within : ∀ operands, Layout.Within operands (layout operands)

namespace Form

/-- Operands divided by a separator, between two texts; with a fixed number of operands if one is
    given. -/
def enclosing (tag before separator after : String) (count : Option Nat) : Form where
  layout operands :=
    if count.any (· != operands.length) then
      Layout.arity tag (.exactly (count.getD 0)) operands
    else .concat [[before], .joined separator operands, [after]]
  within operands e h := by
    split at h
    · simp at h
    · exact .operand (by simpa using h)

end Form
end SqlForms
