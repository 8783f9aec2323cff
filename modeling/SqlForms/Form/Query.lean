import SqlForms.Clause
import SqlForms.Form.From

/-! # Query forms

    A query lists its columns first and then its clauses in the order of
    SQL, except that the columns are written after what makes them distinct.
    Limits, offsets and orderings wrap a query. -/

namespace SqlForms.Query

open Layout (Within)

/-- The condition of a statement. -/
def whereLayout (b : Bound) : Layout :=
  .leading " WHERE " (b.single? "where")

/-- The columns that a changed row gives back. -/
def returningLayout (b : Bound) : Layout :=
  .leadingAll " RETURNING " (b.get? "returning")

/-- The tables of a statement. -/
def fromLayout (operator : String) (b : Bound) : Layout :=
  match b.get? "from" with
  | some es => .text " FROM " :: From.layout operator es
  | none => []

/-- A tree of the condition is an operand of its clause. -/
theorem get?_of_where {b : Bound} {e : Expr} (h : .part e ∈ whereLayout b) :
    ∃ m es, b.get? m = some es ∧ e ∈ es :=
  ⟨"where", Bound.single?_eq_some (by simpa [whereLayout] using h)⟩

/-- A column given back is an operand of its clause. -/
theorem get?_of_returning {b : Bound} {e : Expr} (h : .part e ∈ returningLayout b) :
    ∃ m es, b.get? m = some es ∧ e ∈ es :=
  ⟨"returning", by simpa [returningLayout] using h⟩

/-- A tree of the tables is an operand of their clause. -/
theorem get?_of_from {operator : String} {b : Bound} {e : Expr}
    (h : .part e ∈ fromLayout operator b) : ∃ m es, b.get? m = some es ∧ e ∈ es := by
  unfold fromLayout at h
  split at h
  next es hes => exact ⟨"from", es, hes, From.mem_of_part_mem_layout (by simpa using h)⟩
  next => simp at h

/-! ## Select -/

/-- The clauses of a query. -/
def selectClauses : List Clause :=
  [⟨"columns", .required, true⟩, ⟨"distinct", .flag, false⟩, ⟨"distinct-on", .optional, true⟩,
   ⟨"from", .optional, true⟩, ⟨"where", .optional, false⟩, ⟨"group-by", .optional, true⟩,
   ⟨"having", .optional, false⟩]

/-- What makes the rows distinct. -/
def distinctLayout (b : Bound) : Layout :=
  .concat
    [if b.has "distinct" then ["DISTINCT "] else [],
     match b.get? "distinct-on" with
     | some es => .concat [["DISTINCT ON ("], .joined ", " es, [") "]]
     | none => []]

/-- A query from its clauses. -/
def selectLayout (b : Bound) : Layout :=
  .concat
    [["(SELECT "], distinctLayout b, .joined ", " ((b.get? "columns").getD []),
     fromLayout "select" b, whereLayout b, .leadingAll " GROUP BY " (b.get? "group-by"),
     .leading " HAVING " (b.single? "having"), [")"]]

/-- A query; its rows are made distinct in at most one way. -/
def select (es : List Expr) : Layout :=
  .ofExcept do
    let b ← Clause.splitLeading "select" selectClauses es
    if b.has "distinct" && b.has "distinct-on" then
      .error (.malformed "select" .distinctTwice)
    else .ok (selectLayout b)

/-- The expressions after `DISTINCT ON` are operands of a clause. -/
theorem get?_of_distinct {b : Bound} {e : Expr} (h : .part e ∈ distinctLayout b) :
    ∃ m es, b.get? m = some es ∧ e ∈ es := by
  simp only [distinctLayout, Layout.part_mem_concat, List.mem_cons, List.not_mem_nil, or_false,
    exists_eq_or_imp, exists_eq_left] at h
  rcases h with h | h
  · split at h <;> simp at h
  · split at h
    next es hes => exact ⟨_, es, hes, by simpa using h⟩
    next => simp at h

/-- Everything a selection mentions is an operand of one of its clauses. -/
theorem get?_of_select {b : Bound} {e : Expr} (h : .part e ∈ selectLayout b) :
    ∃ m es, b.get? m = some es ∧ e ∈ es := by
  simp only [selectLayout, Layout.part_mem_concat, List.mem_cons, List.not_mem_nil, or_false,
    exists_eq_or_imp, exists_eq_left] at h
  rcases h with h | h | h | h | h | h | h | h
  · simp at h
  · exact get?_of_distinct h
  · cases hc : b.get? "columns" with
    | none => simp [hc] at h
    | some es => exact ⟨_, es, hc, by simpa [hc] using h⟩
  · exact get?_of_from h
  · exact get?_of_where h
  · exact ⟨_, by simpa using h⟩
  · exact ⟨_, Bound.single?_eq_some (by simpa using h)⟩
  · simp at h

/-- A selection mentions its operands only. -/
theorem select_within (es : List Expr) : Within es (select es) := by
  refine Layout.within_ofExcept fun l hl e he => ?_
  obtain ⟨b, hb, hl⟩ := bind_eq_ok.mp hl
  split at hl
  · cases hl
  · cases hl
    obtain ⟨m, xs, hxs, hx⟩ := get?_of_select he
    exact .operand (Clause.mem_of_splitLeading hb hxs hx)

/-! ## Limits and orderings -/

/-- A query cut to a number of rows, after skipping some if asked for. -/
def limit : List Expr → Layout
  | [query, count] => ["(", .part query, " LIMIT ", .part count, ")"]
  | [query, count, skip] =>
      ["(", .part query, " LIMIT ", .part count, " OFFSET ", .part skip, ")"]
  | es => .arity "limit" .twoOrThree es

/-- A limit mentions its operands only. -/
theorem limit_within (es : List Expr) : Within es (limit es) := by
  intro e h
  unfold limit at h
  split at h
  · exact .operand (by simpa using h)
  · exact .operand (by simpa using h)
  · simp at h

/-- A query without its first rows. -/
def offset : List Expr → Layout
  | [query, skip] => ["(", .part query, " OFFSET ", .part skip, ")"]
  | es => .arity "offset" (.exactly 2) es

/-- An offset mentions its operands only. -/
theorem offset_within (es : List Expr) : Within es (offset es) := by
  intro e h
  unfold offset at h
  split at h
  · exact .operand (by simpa using h)
  · simp at h

/-- A query in the order of one or more keys. -/
def orderBy : List Expr → Layout
  | query :: key :: keys =>
      .concat [["(", .part query, " ORDER BY "], .joined ", " (key :: keys), [")"]]
  | es => .arity "order-by" (.atLeast 2) es

/-- An ordering mentions its operands only. -/
theorem orderBy_within (es : List Expr) : Within es (orderBy es) := by
  intro e h
  unfold orderBy at h
  split at h
  · exact .operand (by simpa using h)
  · simp at h

end SqlForms.Query
