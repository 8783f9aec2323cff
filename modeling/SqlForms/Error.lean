import SqlForms.Expr.Basic
import SqlForms.Json.Basic

/-! # Errors

    An error is a cause: what was wrong, with the tree or the value that was
    at fault.  Its wording is made in one place, `Error.message`. -/

namespace SqlForms

/-- How many operands an operator takes. -/
inductive Count where
  | exactly (n : Nat)
  | atLeast (n : Nat)
  | atMost (n : Nat)
  | twoOrThree
  | oneName
  | even
  | no
  deriving DecidableEq, Repr

/-- What is wrong with the shape of a form. -/
inductive FormFault where
  /-- The operands do not start with a marker of the form. -/
  | noMarker (found : Expr)
  | missingClause (marker : String)
  /-- Operands are left after the last clause. -/
  | leftOver (found : Expr)
  | noPair (found : Expr)
  | elseNotLast
  | distinctTwice
  /-- A join marker stands where a table should. -/
  | joinFirst (marker : Expr)
  | crossJoinWithoutTable
  | incompleteJoin (marker : String)
  | joinWithoutOn (marker : String) (found : Expr)

/-- What a definition fault is about: a column, or a constraint of a table. -/
inductive Owner where
  | column (name : Expr)
  | foreignKey

/-- What is wrong with the contents of a definition. -/
inductive DefinitionFault where
  | typeName (name : String)
  | negativeParameter (n : Int)
  | typeParameter (found : Expr)
  | typeDescriptor (found : Expr)
  | rawText (found : Expr)
  | referentialAction (found : Expr)
  | noColumns (table : Expr)
  | columnList (table found : Expr)
  | columnShape (found : Expr)
  | optionMarker (owner : Owner) (found : Expr)
  | repeatedOption (owner : Owner) (key : String)
  | unknownOption (owner : Owner) (key : String)
  | noType (owner : Owner)
  | referenceShape (owner : Owner)
  | emptyReference (owner : Owner)
  | tooManyActions (owner : Owner) (count : Nat)
  | constraintShape (found : Expr)
  | constraint (found : Expr)
  | stability (found : Expr)
  | argumentTypes (found : Expr)
  | functionBody (found : Expr)
  /-- Operators that only hand their operands on to one another. -/
  | endlessOperator (tag : String)

/-- Why a tree or a value has no SQL text. -/
inductive Error where
  | unknownOperator (tag : String)
  | arity (operator : String) (expected : Count) (actual : Nat)
  | malformed (operator : String) (fault : FormFault)
  | notFinite (x : Binary64)
  | notDecimal (number : String)
  | objectArgument (j : Json)
  | definition (fault : DefinitionFault)
  | unbound (p : Placeholder)

/-! ## Steps that may fail -/

section Steps

variable {α β : Type}

/-- After a step with a result comes the next one with that result. -/
@[simp] theorem ok_bind (a : α) (f : α → Except Error β) : Except.ok a >>= f = f a :=
  rfl

/-- After a step that failed comes nothing. -/
@[simp] theorem error_bind (e : Error) (f : α → Except Error β) :
    Except.error e >>= f = .error e :=
  rfl

/-- A step that only returns does not fail. -/
@[simp] theorem pure_eq_ok (a : α) : (pure a : Except Error α) = .ok a :=
  rfl

/-- The result of a step is handed to a function. -/
@[simp] theorem map_ok (a : α) (f : α → β) : (.ok a : Except Error α).map f = .ok (f a) :=
  rfl

/-- A function has nothing to do after a step that failed. -/
@[simp] theorem map_error (e : Error) (f : α → β) :
    (.error e : Except Error α).map f = .error e :=
  rfl

variable {x : Except Error α}

/-- Two steps succeed exactly when the first does and the second does with its result. -/
theorem bind_eq_ok {f : α → Except Error β} {b : β} :
    x >>= f = .ok b ↔ ∃ a, x = .ok a ∧ f a = .ok b := by
  cases x <;> simp

/-- Two steps fail in the first or, after it, in the second. -/
theorem bind_eq_error {f : α → Except Error β} {e : Error} :
    x >>= f = .error e ↔ x = .error e ∨ ∃ a, x = .ok a ∧ f a = .error e := by
  cases x <;> simp

/-- A step that goes through yields what the function makes of its result. -/
theorem map_eq_ok {f : α → β} {b : β} : x.map f = .ok b ↔ ∃ a, x = .ok a ∧ f a = b := by
  cases x <;> simp

/-- A function leaves the fault of a step as it is. -/
theorem map_eq_error {f : α → β} {e : Error} : x.map f = .error e ↔ x = .error e := by
  cases x <;> simp

end Steps

/-! ## Wording -/

/-- A count in words. -/
def Count.text : Count → String
  | .exactly n => "exactly " ++ toString n
  | .atLeast n => "at least " ++ toString n
  | .atMost n => "at most " ++ toString n
  | .twoOrThree => "2 or 3"
  | .oneName => "exactly 1 name"
  | .even => "an even number of"
  | .no => "no"

/-- An owner in words. -/
def Owner.text : Owner → String
  | .column name => "column " ++ name.display
  | .foreignKey => "foreign key"

/-- The message of a form fault. -/
def FormFault.message : FormFault → String
  | .noMarker found => "expected a clause marker, found " ++ found.display
  | .missingClause marker => "missing required :" ++ marker
  | .leftOver found => found.display ++ " is not valid here"
  | .noPair found => "expected a [condition value] pair, found " ++ found.display
  | .elseNotLast => ":else must be the last clause"
  | .distinctTwice => ":distinct and :distinct-on are mutually exclusive"
  | .joinFirst marker => marker.display ++ " needs a table before it"
  | .crossJoinWithoutTable => "cross-join without a table"
  | .incompleteJoin marker => ":" ++ marker ++ " expects a table, :on and a condition"
  | .joinWithoutOn marker found =>
      ":" ++ marker ++ " expects :on after the table, found " ++ found.display

/-- The message of a definition fault. -/
def DefinitionFault.message : DefinitionFault → String
  | .typeName name => "invalid type name: " ++ Text.quoted name
  | .negativeParameter n => "negative type parameter: " ++ toString n
  | .typeParameter found => "type parameters must be integers, got " ++ found.display
  | .typeDescriptor found => "invalid type descriptor: " ++ found.display
  | .rawText found => "raw expects a text literal, found " ++ found.display
  | .referentialAction found => "unknown foreign key action: " ++ found.display
  | .noColumns table => "table " ++ table.display ++ " has no columns"
  | .columnList table found =>
      "columns of table " ++ table.display ++ " must be a list, got " ++ found.display
  | .columnShape found => "column definitions must be non-empty lists, got " ++ found.display
  | .optionMarker owner found =>
      owner.text ++ ": expected an option marker, found " ++ found.display
  | .repeatedOption owner key => owner.text ++ ": option :" ++ key ++ " given more than once"
  | .unknownOption owner key => owner.text ++ ": unknown option :" ++ key
  | .noType owner => owner.text ++ " has no :type"
  | .referenceShape owner =>
      owner.text ++ ": :references expects ((table [column]) [on-delete [on-update]])"
  | .emptyReference owner => owner.text ++ ": empty reference target"
  | .tooManyActions owner count =>
      owner.text ++ ": a reference takes at most two actions, got " ++ toString count
  | .constraintShape found => "table constraints must be lists, got " ++ found.display
  | .constraint found => "invalid table constraint: " ++ found.display
  | .stability found =>
      "function stability must be :immutable, :stable or :volatile, got " ++ found.display
  | .argumentTypes found => "function argument types must be a list, got " ++ found.display
  | .functionBody found => "function body must be a text literal, got " ++ found.display
  | .endlessOperator tag => "operator " ++ tag ++ " never comes to an end"

/-- The message of a constant or argument without a literal. -/
def unserializable (value reason : String) : String :=
  "cannot serialize " ++ value ++ " as a SQL literal: " ++ reason

/-- The message of an error. -/
def Error.message : Error → String
  | .unknownOperator tag => "unknown operator: " ++ tag
  | .arity operator expected actual =>
      "operator " ++ operator ++ " expects " ++ expected.text ++ " operand(s), got " ++
        toString actual
  | .malformed operator fault => "malformed " ++ operator ++ " form: " ++ fault.message
  | .notFinite x => unserializable (Value.float x).describe "not a finite number"
  | .notDecimal number => unserializable (Value.numeric number).describe "not a decimal number"
  | .objectArgument j => unserializable j.describe "objects have no SQL literal form"
  | .definition fault => "configuration error: " ++ fault.message
  | .unbound p =>
      "placeholder " ++ p.name.getD "?" ++ " cannot be bound in a static compilation"

end SqlForms
