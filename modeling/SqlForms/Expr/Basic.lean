import SqlForms.Value.Basic

/-! # Expression trees

    A statement is a tree: constants, names, keywords that mark clauses,
    operations named by a tag, placeholders for values that come later, and
    lists.  A tree has two texts.  `display` writes it as a reader would,
    `(= id ?)`; `describe` spells out its structure. -/

namespace SqlForms

/-- A value that is supplied when the statement is filled in. -/
structure Placeholder where
  name : Option String := none
  deriving DecidableEq, Repr, Inhabited

/-- An expression tree. -/
inductive Expr where
  | literal (v : Value)
  | identifier (name : String)
  | operation (tag : String) (operands : List Expr)
  /-- A constant kept apart from the literals of the tree, though written like one. -/
  | quoted (v : Value)
  | placeholder (p : Placeholder)
  | keyword (name : String)
  | list (items : List Expr)

/-- A placeholder as a question mark and its name. -/
def Placeholder.display (p : Placeholder) : String :=
  "?" ++ p.name.getD ""

namespace Expr

/-! ## Looking at a node -/

/-- The name of a keyword. -/
def keyword? : Expr → Option String
  | .keyword name => some name
  | _ => none

/-- Whether a tree is the given keyword. -/
def isKeyword (name : String) : Expr → Bool
  | .keyword n => n == name
  | _ => false

/-- The name of a keyword or an identifier. -/
def symbol? : Expr → Option String
  | .keyword name => some name
  | .identifier name => some name
  | _ => none

/-- The items of a list. -/
def items? : Expr → Option (List Expr)
  | .list items => some items
  | _ => none

/-- The text of a text constant. -/
def text? : Expr → Option String
  | .literal (.text s) => some s
  | .quoted (.text s) => some s
  | _ => none

/-- Whether a tree counts as true: all but the constants null and false do. -/
def isTruthy : Expr → Bool
  | .literal .null => false
  | .literal (.bool false) => false
  | .quoted .null => false
  | .quoted (.bool false) => false
  | _ => true

/-- The keyword of a name that may be written with its colon. -/
def ofKeyword (name : String) : Expr :=
  match name.toList with
  | ':' :: rest => .keyword (String.ofList rest)
  | _ => .keyword name

/-! ## Texts -/

/-- A constant as a reader would write it. -/
def displayValue : Value → String
  | .text s => Text.quoted s
  | .null => "null"
  | .bool b => Value.boolText b
  | .int n => toString n.toInt
  | .float x => NumberStyle.plain.write x
  | v => v.describe

mutual

/-- A tree as a reader would write it. -/
def display : Expr → String
  | .literal v => displayValue v
  | .identifier name => name
  | .operation tag operands => "(" ++ " ".intercalate (tag :: displayAll operands) ++ ")"
  | .quoted v => "'" ++ v.describe
  | .placeholder p => p.display
  | .keyword name => ":" ++ name
  | .list items => "[" ++ " ".intercalate (displayAll items) ++ "]"

/-- Trees as a reader would write them. -/
def displayAll : List Expr → List String
  | [] => []
  | e :: es => display e :: displayAll es

end

mutual

/-- The structural text of a tree. -/
def describe : Expr → String
  | .literal v => "Literal(" ++ v.describe ++ ")"
  | .identifier name => "Identifier(" ++ Text.quoted name ++ ")"
  | .operation tag operands =>
      "Operation \x7b tag: " ++ Text.quoted tag ++ ", operands: [" ++
        ", ".intercalate (describeAll operands) ++ "] \x7d"
  | .quoted v => "Quoted(" ++ v.describe ++ ")"
  | .placeholder p =>
      "Placeholder(Placeholder \x7b name: " ++
        (match p.name with
          | some name => "Some(" ++ Text.quoted name ++ ")"
          | none => "None") ++ " \x7d)"
  | .keyword name => "Keyword(" ++ Text.quoted name ++ ")"
  | .list items => "List([" ++ ", ".intercalate (describeAll items) ++ "])"

/-- The structural texts of trees. -/
def describeAll : List Expr → List String
  | [] => []
  | e :: es => describe e :: describeAll es

end

end Expr
end SqlForms
