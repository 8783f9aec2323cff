import SqlForms.Layout
import SqlForms.TypeName

/-! # Expression forms

    The forms of expressions that are not plain operators: membership,
    ranges, alternatives, casts, qualified names and the ordering marks of a
    sort key.  After each form stands the fact that it only mentions its own
    operands, or the items of lists among them. -/

namespace SqlForms.Predicate

open Layout (Within)

/-! ## Forms of a fixed number of operands -/

/-- A value and the set it is compared with, as in `(x IN set)`. -/
def membership (tag sql : String) : List Expr → Layout
  | [x, set] => ["(", .part x, sql, .part set, ")"]
  | es => .arity tag (.exactly 2) es

/-- A membership test mentions its operands only. -/
theorem membership_within (tag sql : String) (es : List Expr) :
    Within es (membership tag sql es) := by
  intro e h
  unfold membership at h
  split at h
  · exact .operand (by simpa using h)
  · simp at h

/-- An expression and the name it gets. -/
def renamed : List Expr → Layout
  | [x, name] => [.part x, " AS ", .part name]
  | es => .arity "as" (.exactly 2) es

/-- A renaming mentions its operands only. -/
theorem renamed_within (es : List Expr) : Within es (renamed es) := by
  intro e h
  unfold renamed at h
  split at h
  · exact .operand (by simpa using h)
  · simp at h

/-- Whether a query has a row. -/
def exists_ : List Expr → Layout
  | [query] => ["(EXISTS ", .part query, ")"]
  | es => .arity "exists" (.exactly 1) es

/-- A test for rows mentions its operands only. -/
theorem exists_within (es : List Expr) : Within es (exists_ es) := by
  intro e h
  unfold exists_ at h
  split at h
  · exact .operand (by simpa using h)
  · simp at h

/-- A value and the two ends of a range. -/
def between : List Expr → Layout
  | [x, low, high] => ["(", .part x, " BETWEEN ", .part low, " AND ", .part high, ")"]
  | es => .arity "between" (.exactly 3) es

/-- A range test mentions its operands only. -/
theorem between_within (es : List Expr) : Within es (between es) := by
  intro e h
  unfold between at h
  split at h
  · exact .operand (by simpa using h)
  · simp at h

/-- Text that goes into the statement as it is. -/
def raw : List Expr → Layout
  | [e] =>
      match e.text? with
      | some sql => [sql]
      | none => .refuse (.definition (.rawText e))
  | es => .arity "raw" (.exactly 1) es

/-- Raw text mentions nothing. -/
theorem raw_within (es : List Expr) : Within es (raw es) := by
  intro e h
  unfold raw at h
  split at h
  · split at h <;> simp at h
  · simp at h

/-- An expression and the type it is cast to. -/
def cast (tag : String) : List Expr → Layout
  | [x, type] => [.part x, "::", .ofExcept (TypeName.ofExpr type)]
  | es => .arity tag (.exactly 2) es

/-- A cast mentions the operand it converts. -/
theorem cast_within (tag : String) (es : List Expr) : Within es (cast tag es) := by
  intro e h
  unfold cast at h
  split at h
  next x type =>
    have : e = x := by simpa using h
    exact .operand (by simp [this])
  next => simp at h

/-- An expression with a mark after it, as in `x DESC`. -/
def suffixed (tag sql : String) : List Expr → Layout
  | [x] => [.part x, sql]
  | es => .arity tag (.exactly 1) es

/-- A test written after its operand mentions that operand. -/
theorem suffixed_within (tag sql : String) (es : List Expr) : Within es (suffixed tag sql es) := by
  intro e h
  unfold suffixed at h
  split at h
  · exact .operand (by simpa using h)
  · simp at h

/-! ## Forms of any number of operands -/

/-- A list of values in parentheses. -/
def set (es : List Expr) : Layout :=
  .parenthesized es

/-- A set mentions its members. -/
theorem set_within (es : List Expr) : Within es (set es) :=
  fun _ h => .operand (by simpa [set] using h)

/-- A qualified name. -/
def dot (es : List Expr) : Layout :=
  if es.length < 2 then .arity "dot" (.atLeast 2) es else .joined "." es

/-- A path mentions its steps. -/
theorem dot_within (es : List Expr) : Within es (dot es) := by
  intro e h
  unfold dot at h
  split at h
  · simp at h
  · exact .operand (by simpa using h)

/-- One clause of an alternative: a condition and its value, or the value that is left. -/
def caseClause (isLast : Bool) : Expr → Layout
  | .list [condition, value] =>
      if condition.isKeyword "else" then
        if isLast then [" ELSE ", .part value] else .refuse (.malformed "case" .elseNotLast)
      else [" WHEN ", .part condition, " THEN ", .part value]
  | e => .refuse (.malformed "case" (.noPair e))

/-- The clauses of an alternative. -/
def caseClauses : List Expr → Layout
  | [] => []
  | e :: es => caseClause es.isEmpty e ++ caseClauses es

/-- The first value whose condition holds. -/
def case : List Expr → Layout
  | [] => .arity "case" (.atLeast 1) []
  | es => .concat [["CASE"], caseClauses es, [" END"]]

/-- A clause of a case distinction mentions its condition and its value. -/
theorem caseClause_within {isLast : Bool} {clause : Expr} {es : List Expr} (hc : clause ∈ es) :
    Within es (caseClause isLast clause) := by
  intro e h
  unfold caseClause at h
  split at h
  next condition value =>
    refine .item (.operand hc) ?_
    split at h
    · split at h <;> simp_all
    · simpa using h
  next => simp at h

/-- The clauses of a case distinction mention what each of them does. -/
theorem caseClauses_within {clauses es : List Expr} (hc : ∀ c ∈ clauses, c ∈ es) :
    Within es (caseClauses clauses) := by
  induction clauses with
  | nil => intro e h; simp [caseClauses] at h
  | cons c cs ih =>
      intro e h
      rcases List.mem_append.mp h with h | h
      · exact caseClause_within (hc c (by simp)) e h
      · exact ih (fun x hx => hc x (by simp [hx])) e h

/-- A case distinction mentions its operands only. -/
theorem case_within (es : List Expr) : Within es (case es) := by
  intro e h
  unfold case at h
  split at h
  · simp at h
  · exact caseClauses_within (fun _ hc => hc) e (by simpa using h)

end SqlForms.Predicate
