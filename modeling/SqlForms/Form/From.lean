import SqlForms.Layout

/-! # From lists

    The tables of a query: expressions divided by commas, and joins.  A
    cross join takes a table; every other join takes a table, the keyword
    `:on` and a condition. -/

namespace SqlForms.From

open Layout (Within)

/-- The joins that take a condition: the keyword and its text. -/
def conditionalJoins : List (String × String) :=
  [("inner-join", " INNER JOIN "), ("left-join", " LEFT JOIN "), ("right-join", " RIGHT JOIN "),
   ("outer-join", " FULL OUTER JOIN ")]

/-- How an item of a from list is read. -/
inductive Item where
  | table
  | crossJoin
  | join (marker sql : String)
  deriving DecidableEq, Repr

/-- Whether a keyword marks a join. -/
def classify (e : Expr) : Item :=
  match e.keyword? with
  | none => .table
  | some name =>
      if name = "cross-join" then .crossJoin
      else match conditionalJoins.lookup name with
        | some sql => .join name sql
        | none => .table

/-- The items that are left; a comma divides a table from what is before it. -/
def items (operator : String) (isFirst : Bool) : List Expr → Layout
  | [] => []
  | e :: rest =>
      match classify e, rest with
      | .crossJoin, [] => .refuse (.malformed operator .crossJoinWithoutTable)
      | .crossJoin, target :: rest =>
          .text " CROSS JOIN " :: .part target :: items operator false rest
      | .join marker sql, target :: on :: condition :: rest =>
          if on.isKeyword "on" then
            .text sql :: .part target :: .text " ON " :: .part condition ::
              items operator false rest
          else .refuse (.malformed operator (.joinWithoutOn marker on))
      | .join marker _, _ => .refuse (.malformed operator (.incompleteJoin marker))
      | .table, rest =>
          if isFirst then .part e :: items operator false rest
          else .text ", " :: .part e :: items operator false rest

/-- A from list; it starts with a table. -/
def layout (operator : String) : List Expr → Layout
  | [] => []
  | e :: rest =>
      if classify e = .table then items operator true (e :: rest)
      else .refuse (.malformed operator (.joinFirst e))

/-- The items of a from list mention what they are made of. -/
theorem mem_of_part_mem_items {operator : String} {isFirst : Bool} {es : List Expr} {e : Expr}
    (h : Piece.part e ∈ items operator isFirst es) : e ∈ es := by
  -- A fault mentions nothing; every other element mentions its trees, and then come the rest.
  fun_induction items operator isFirst es with
  | case1 => cases h
  | case2 => exact absurd h Layout.part_mem_refuse
  | case3 _ marker target rest _ ih =>
      simp only [List.mem_cons, reduceCtorEq, false_or, Piece.part.injEq] at h
      rcases h with rfl | h
      · simp
      · simp [ih h]
  | case4 _ marker _ _ target on condition rest _ _ ih =>
      simp only [List.mem_cons, reduceCtorEq, false_or, Piece.part.injEq] at h
      rcases h with rfl | rfl | h
      · simp
      · simp
      · simp [ih h]
  | case5 => exact absurd h Layout.part_mem_refuse
  | case6 => exact absurd h Layout.part_mem_refuse
  | case7 table rest _ ih =>
      simp only [List.mem_cons, Piece.part.injEq] at h
      rcases h with rfl | h
      · simp
      · simp [ih h]
  | case8 _ table rest _ _ ih =>
      simp only [List.mem_cons, reduceCtorEq, false_or, Piece.part.injEq] at h
      rcases h with rfl | h
      · simp
      · simp [ih h]

/-- A from list mentions its items. -/
theorem mem_of_part_mem_layout {operator : String} {es : List Expr} {e : Expr}
    (h : Piece.part e ∈ layout operator es) : e ∈ es := by
  unfold layout at h
  split at h
  · simp at h
  · split at h
    · exact mem_of_part_mem_items h
    · simp at h

end SqlForms.From
