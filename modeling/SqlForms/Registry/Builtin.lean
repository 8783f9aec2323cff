import SqlForms.Registry.Basic
import SqlForms.Form.Predicate
import SqlForms.Form.Query
import SqlForms.Form.Change
import SqlForms.Form.Table
import SqlForms.Form.Schema
import SqlForms.Form.Function

/-! # The operators of PostgreSQL

    The operators that every statement can use, by tag. -/

namespace SqlForms.Registry

/-- Operators of one class, by tag and text. -/
def ofClass (make : String → Operator) (rows : List (String × String)) :
    List (String × Operator) :=
  rows.map fun row => (row.1, make row.2)

/-- The operators that belong to a class. -/
def declarativeTable : List (String × Operator) :=
  ofClass .unary [("not", "NOT")] ++
  ofClass .trailing [("is-null", "IS NULL"), ("not-null", "IS NOT NULL")] ++
  ofClass .nary
    [("+", "+"), ("*", "*"), ("%", "%"), ("&", "&"), ("|", "|"), ("||", "||"), ("and", "AND"),
     ("or", "OR"), ("union", "UNION"), ("union-all", "UNION ALL")] ++
  ofClass .naryOrUnary [("-", "-"), ("~", "~")] ++
  ofClass .twoOrMore
    [("=", "="), ("/", "/"), ("!=", "!="), ("<>", "<>"), ("<", "<"), (">", ">"), ("<=", "<="),
     (">=", ">="), ("^", "^"), ("~*", "~*"), ("!~", "!~"), ("!~*", "!~*"), ("like", "LIKE"),
     ("ilike", "ILIKE"), ("->", "->"), ("->>", "->>"), ("#>", "#>"), ("#>>", "#>>"),
     ("@>", "@>"), ("<@", "<@"), ("intersect", "INTERSECT"),
     ("intersect-all", "INTERSECT ALL"), ("except", "EXCEPT"), ("except-all", "EXCEPT ALL")]

/-- The forms of expressions. -/
def predicateForms : List (String × Form) :=
  [("in", ⟨Predicate.membership "in" " IN ", Predicate.membership_within _ _⟩),
   ("not-in", ⟨Predicate.membership "not-in" " NOT IN ", Predicate.membership_within _ _⟩),
   ("set", ⟨Predicate.set, Predicate.set_within⟩),
   ("as", ⟨Predicate.renamed, Predicate.renamed_within⟩),
   ("exists", ⟨Predicate.exists_, Predicate.exists_within⟩),
   ("between", ⟨Predicate.between, Predicate.between_within⟩),
   ("case", ⟨Predicate.case, Predicate.case_within⟩),
   ("raw", ⟨Predicate.raw, Predicate.raw_within⟩),
   ("dot", ⟨Predicate.dot, Predicate.dot_within⟩),
   ("cast", ⟨Predicate.cast "cast", Predicate.cast_within _⟩),
   ("type", ⟨Predicate.cast "type", Predicate.cast_within _⟩),
   ("desc", ⟨Predicate.suffixed "desc" " DESC", Predicate.suffixed_within _ _⟩),
   ("asc", ⟨Predicate.suffixed "asc" " ASC", Predicate.suffixed_within _ _⟩),
   ("nulls-first",
     ⟨Predicate.suffixed "nulls-first" " NULLS FIRST", Predicate.suffixed_within _ _⟩),
   ("nulls-last",
     ⟨Predicate.suffixed "nulls-last" " NULLS LAST", Predicate.suffixed_within _ _⟩)]

/-- The forms of queries and of changes to rows. -/
def statementForms : List (String × Form) :=
  [("select", ⟨Query.select, Query.select_within⟩),
   ("limit", ⟨Query.limit, Query.limit_within⟩),
   ("offset", ⟨Query.offset, Query.offset_within⟩),
   ("order-by", ⟨Query.orderBy, Query.orderBy_within⟩),
   ("insert-into", ⟨Change.insertInto, Change.insertInto_within⟩),
   ("update", ⟨Change.update, Change.update_within⟩),
   ("delete-from", ⟨Change.deleteFrom, Change.deleteFrom_within⟩)]

/-- The forms that define and remove the objects of a schema. -/
def schemaForms : List (String × Form) :=
  [("create-table", ⟨Table.createTable, Table.createTable_within⟩),
   ("create-index",
     ⟨Schema.createIndex "create-index" "CREATE INDEX ", Schema.createIndex_within _ _⟩),
   ("create-unique-index",
     ⟨Schema.createIndex "create-unique-index" "CREATE UNIQUE INDEX ",
       Schema.createIndex_within _ _⟩),
   ("create-sequence", ⟨Schema.createSequence, Schema.createSequence_within⟩),
   ("drop-table", ⟨Schema.drop "drop-table" "TABLE", Schema.drop_within _ _⟩),
   ("drop-index", ⟨Schema.drop "drop-index" "INDEX", Schema.drop_within _ _⟩),
   ("drop-sequence", ⟨Schema.drop "drop-sequence" "SEQUENCE", Schema.drop_within _ _⟩),
   ("create-function", ⟨Function.createFunction, Function.createFunction_within⟩)]

/-- All operators with a form of their own. -/
def customTable : List (String × Operator) :=
  (predicateForms ++ statementForms ++ schemaForms).map fun row => (row.1, .custom row.2)

/-- The registry of all these operators. -/
def builtin : Registry :=
  empty.insertAll (declarativeTable ++ customTable)

/-- The lines that list the operators of a registry: each tag, padded to a column of its own, and
    its class. -/
def listing (r : Registry) : List String :=
  r.operators.toList.map fun row =>
    row.1 ++ String.ofList (List.replicate (24 - row.1.length) ' ') ++ " " ++ row.2.className

end SqlForms.Registry
