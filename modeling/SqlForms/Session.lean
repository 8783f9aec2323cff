import SqlForms.Compiler

/-! # Sessions

    A session holds the configuration that later statements are written
    with, and the compiled trees that were kept under a name.  A template
    keeps the configuration of the moment it was made. -/

namespace SqlForms

/-- What was kept under a name. -/
inductive Kept where
  | compiled (c : Compiled)
  | template (t : Template)
  deriving DecidableEq

/-- Fills what was kept with values. -/
def Kept.fill : Kept → List Value → Except Error String
  | .compiled c, values => c.fill values
  | .template t, values => t.fill values

/-- The configuration in use, and what was kept. -/
structure Session where
  config : Config := {}
  kept : List (String × Kept) := []

namespace Session

/-- Selects the standard dialect, or the backslash dialect. -/
def setStandardStrings (s : Session) (on : Bool) : Session :=
  { s with config := { s.config with strings := if on then .standard else .backslash } }

/-- Turns the quoting of names on or off. -/
def setQuoteNames (s : Session) (on : Bool) : Session :=
  { s with config := { s.config with quoteNames := on } }

/-- The compiler of the session: all operators, in the configuration in use. -/
def compiler (s : Session) : Compiler :=
  { registry := .builtin, config := s.config }

/-- Keeps a result under a name, in place of the one kept there before. -/
def keep (s : Session) (name : String) (k : Kept) : Session :=
  { s with kept := (name, k) :: s.kept }

/-- What was last kept under a name. -/
def find? (s : Session) (name : String) : Option Kept :=
  s.kept.lookup name

end Session
end SqlForms
