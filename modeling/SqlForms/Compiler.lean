import SqlForms.Name
import SqlForms.Registry.Builtin
import SqlForms.Template

/-! # Compilation

    A tree is written atom by atom.  Names and literals are spelled by the
    configuration; a placeholder becomes a slot, or an error when every
    value has to be known.  The first atom that cannot be written is the
    error of the whole. -/

namespace SqlForms

/-- What a tree is written with. -/
structure Compiler where
  registry : Registry
  config : Config := {}
  mode : Mode := .deferred

namespace Compiler

/-- Writes an atom at the end of a sequence. -/
def writeAtom (c : Compiler) (out : Fragments) : Atom → Except Error Fragments
  | .text s => .ok (out.pushText s)
  | .name n => .ok (out.pushText (Name.write c.config.quoteNames n))
  | .literal v => (v.sql c.config.strings).map out.pushText
  | .slot p =>
      match c.mode with
      | .deferred => .ok (out.pushSlot p)
      | .static => .error (.unbound p)
  | .chosen f => .ok (out.pushText (f c.config c.mode))
  | .refuse e => .error e

/-- Writes atoms at the end of a sequence. -/
def writeAtoms (c : Compiler) (out : Fragments) (atoms : List Atom) : Except Error Fragments :=
  atoms.foldlM c.writeAtom out

/-- Writes a tree at the end of a sequence. -/
def writeInto (c : Compiler) (out : Fragments) (e : Expr) : Except Error Fragments :=
  c.writeAtoms out (c.registry.atoms e)

/-- Writes trees with a text between each two at the end of a sequence. -/
def writeJoined (c : Compiler) (out : Fragments) (es : List Expr) (separator : String) :
    Except Error Fragments :=
  c.writeAtoms out (c.registry.atomsOf (.joined separator es))

/-- The fragments of a tree. -/
def write (c : Compiler) (e : Expr) : Except Error Fragments :=
  c.writeInto .empty e

/-- The text of a tree whose values are all known. -/
def statement (c : Compiler) (e : Expr) : Except Error String := do
  let f ← { c with mode := .static }.write e
  match f.sql? with
  | some text => .ok text
  | none => .error (.unbound {})

/-- The template of a tree. -/
def template (c : Compiler) (e : Expr) : Except Error Template := do
  let f ← { c with mode := .deferred }.write e
  return ⟨f, c.config⟩

/-- The text of a tree, or its template when values are still to come. -/
def compile (c : Compiler) (e : Expr) : Except Error Compiled := do
  let t ← c.template e
  return .ofTemplate t

end Compiler
end SqlForms
