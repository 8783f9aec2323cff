import SqlForms.Layout

/-! # Operators

    Most operators belong to one of five classes that only differ in where
    the operator's text stands and how many operands it takes.  All others
    have a form of their own; a continued operator writes its form and then
    whatever another operator writes for the same operands. -/

namespace SqlForms

/-- What an operation does with its operands. -/
inductive Operator where
  /-- Writes `(OP x)`. -/
  | unary (sql : String)
  /-- Writes `(x OP)`. -/
  | trailing (sql : String)
  /-- Writes `(x OP y OP z)`, or `x` alone. -/
  | nary (sql : String)
  /-- Writes `(x OP y OP z)`, with at least two operands. -/
  | twoOrMore (sql : String)
  /-- Writes `(x OP y OP z)`, or `(OP x)`. -/
  | naryOrUnary (sql : String)
  /-- A form of its own. -/
  | custom (form : Form)
  /-- A form of its own, and then what the operator `next` writes for the same operands. -/
  | continued (form : Form) (next : String)

namespace Operator

/-- Whether an operator belongs to one of the five classes. -/
def isDeclarative : Operator → Bool
  | .custom _ => false
  | .continued _ _ => false
  | _ => true

/-- The name of the class of an operator. -/
def className : Operator → String
  | .unary _ => "unary"
  | .trailing _ => "unary-postfix"
  | .nary _ => "n-ary"
  | .twoOrMore _ => "2+-ary"
  | .naryOrUnary _ => "n-or-unary"
  | .custom _ => "custom"
  | .continued _ _ => "custom"

/-- The structural text of an operator. -/
def describe : Operator → String
  | .unary sql => "Unary(" ++ Text.quoted sql ++ ")"
  | .trailing sql => "UnaryPostfix(" ++ Text.quoted sql ++ ")"
  | .nary sql => "Nary(" ++ Text.quoted sql ++ ")"
  | .twoOrMore sql => "TwoOrMore(" ++ Text.quoted sql ++ ")"
  | .naryOrUnary sql => "NaryOrUnary(" ++ Text.quoted sql ++ ")"
  | .custom _ => "Custom"
  | .continued _ _ => "Custom"

/-- The operator's text before its operand. -/
def before (sql : String) (x : Expr) : Layout :=
  ["(", sql, " ", .part x, ")"]

/-- The operator's text between each two operands. -/
def amid (sql : String) (es : List Expr) : Layout :=
  .concat [["("], .joined (" " ++ sql ++ " ") es, [")"]]

/-- What an operator under the given tag writes itself. -/
def layout (tag : String) (o : Operator) (es : List Expr) : Layout :=
  match o with
  | .unary sql =>
      match es with
      | [x] => before sql x
      | es => .arity tag (.exactly 1) es
  | .trailing sql =>
      match es with
      | [x] => ["(", .part x, " ", sql, ")"]
      | es => .arity tag (.exactly 1) es
  | .nary sql =>
      match es with
      | [] => .arity tag (.atLeast 1) []
      | [x] => [.part x]
      | es => amid sql es
  | .twoOrMore sql =>
      match es with
      | x :: y :: es => amid sql (x :: y :: es)
      | es => .arity tag (.atLeast 2) es
  | .naryOrUnary sql =>
      match es with
      | [] => .arity tag (.atLeast 1) []
      | [x] => before sql x
      | es => amid sql es
  | .custom form => form.layout es
  | .continued form _ => form.layout es

/-- The operator that goes on with the operands. -/
def next? : Operator → Option String
  | .continued _ next => some next
  | _ => none

@[simp] private theorem part_mem_before {sql : String} {x e : Expr} :
    Piece.part e ∈ before sql x ↔ e = x := by
  simp [before]

@[simp] private theorem part_mem_amid {sql : String} {es : List Expr} {e : Expr} :
    Piece.part e ∈ amid sql es ↔ e ∈ es := by
  simp [amid]

/-- An operator only mentions what can be reached from its operands. -/
theorem layout_within (tag : String) (o : Operator) (es : List Expr) :
    Layout.Within es (o.layout tag es) := by
  intro e h
  cases o with
  | unary sql =>
      simp only [layout] at h
      split at h
      · exact .operand (by simpa using h)
      · simp at h
  | trailing sql =>
      simp only [layout] at h
      split at h
      · exact .operand (by simpa using h)
      · simp at h
  | nary sql =>
      simp only [layout] at h
      split at h
      · simp at h
      · exact .operand (by simpa using h)
      · exact .operand (by simpa using h)
  | twoOrMore sql =>
      simp only [layout] at h
      split at h
      · exact .operand (by simpa using h)
      · simp at h
  | naryOrUnary sql =>
      simp only [layout] at h
      split at h
      · simp at h
      · exact .operand (by simpa using h)
      · exact .operand (by simpa using h)
  | custom form => exact form.within es e h
  | continued form next => exact form.within es e h

end Operator
end SqlForms
