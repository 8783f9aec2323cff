import SqlForms.Form.Query

/-! # Statements that change rows

    Insertion and update take fields and values in turn after `:set`; an
    insertion may take a query instead.  Every change can give back columns
    of the rows it made. -/

namespace SqlForms.Change

open Layout (Within)

/-- Items in turn as pairs; an item left over is dropped. -/
def pairs : List Expr → List (Expr × Expr)
  | field :: value :: rest => (field, value) :: pairs rest
  | _ => []

/-- The items after `:set` as pairs of a field and a value. -/
def assignments (operator : String) (b : Bound) : Except Error (List (Expr × Expr)) :=
  let items := (b.get? "set").getD []
  if items.length % 2 = 0 then .ok (pairs items)
  else .error (.arity (operator ++ " :set") .even items.length)

/-- A pair is made of items. -/
theorem mem_of_mem_pairs {es : List Expr} {p : Expr × Expr} (h : p ∈ pairs es) :
    p.1 ∈ es ∧ p.2 ∈ es := by
  fun_induction pairs es with
  | case1 field value rest ih =>
      rcases List.mem_cons.mp h with rfl | h
      · simp
      · obtain ⟨hfield, hvalue⟩ := ih h
        exact ⟨List.mem_cons_of_mem _ (List.mem_cons_of_mem _ hfield),
          List.mem_cons_of_mem _ (List.mem_cons_of_mem _ hvalue)⟩
  | case2 => cases h

/-- The pairs of a change are made of the operands of its `:set`. -/
theorem get?_of_assignments {operator : String} {b : Bound} {ps : List (Expr × Expr)}
    (h : assignments operator b = .ok ps) {p : Expr × Expr} (hp : p ∈ ps) :
    ∃ es, b.get? "set" = some es ∧ p.1 ∈ es ∧ p.2 ∈ es := by
  simp only [assignments] at h
  split at h
  · cases h
    cases hs : b.get? "set" with
    | none => simp [hs, pairs] at hp
    | some es => exact ⟨es, rfl, mem_of_mem_pairs (by simpa [hs] using hp)⟩
  · simp at h

/-! ## Insertion -/

/-- The clauses of an insertion of one row. -/
def rowClauses : List Clause :=
  [⟨"set", .required, true⟩, ⟨"returning", .optional, true⟩]

/-- The clauses after the query of an insertion. -/
def queryClauses : List Clause :=
  [⟨"returning", .optional, true⟩]

/-- The insertion of one row. -/
def insertRow (table : Expr) (rest : List Expr) : Except Error Layout := do
  let b ← Clause.split "insert-into" rowClauses rest
  let ps ← assignments "insert-into" b
  return .concat
    [["INSERT INTO ", .part table, " ("], .joined ", " (ps.map (·.1)), [") VALUES ("],
     .joined ", " (ps.map (·.2)), [")"], Query.returningLayout b]

/-- The insertion of the rows of a query. -/
def insertQuery (table query : Expr) (rest : List Expr) : Except Error Layout := do
  let b ← Clause.split "insert-into" queryClauses rest
  return .concat
    [["INSERT INTO ", .part table, " ", .part query], Query.returningLayout b]

/-- An insertion into a table. -/
def insertInto : List Expr → Layout
  | [] => .arity "insert-into" (.atLeast 1) []
  | [table] => .arity "insert-into" (.atLeast 2) [table]
  | table :: e :: rest =>
      .ofExcept
        (if e.isKeyword "set" then insertRow table (e :: rest) else insertQuery table e rest)

/-- An inserted row mentions the table, the fields and the values. -/
theorem insertRow_within {table : Expr} {rest : List Expr} {l : Layout}
    (h : insertRow table rest = .ok l) : Within (table :: rest) l := by
  intro e he
  obtain ⟨b, hb, h⟩ := bind_eq_ok.mp h
  obtain ⟨ps, hp, h⟩ := bind_eq_ok.mp h
  cases h
  have given : ∀ {m es}, b.get? m = some es → e ∈ es → Reach (table :: rest) e :=
    fun hg hm => .operand (List.mem_cons_of_mem _ (Clause.mem_of_split hb hg hm))
  simp only [Layout.part_mem_concat, List.mem_cons, List.not_mem_nil, or_false,
    exists_eq_or_imp, exists_eq_left] at he
  rcases he with h | h | h | h | h | h
  · exact .operand (by simp_all)
  · obtain ⟨p, hp', rfl⟩ := List.mem_map.mp (Layout.part_mem_joined.mp h)
    obtain ⟨es, hes, h1, -⟩ := get?_of_assignments hp hp'
    exact given hes h1
  · simp at h
  · obtain ⟨p, hp', rfl⟩ := List.mem_map.mp (Layout.part_mem_joined.mp h)
    obtain ⟨es, hes, -, h2⟩ := get?_of_assignments hp hp'
    exact given hes h2
  · simp at h
  · obtain ⟨m, es, hes, hm⟩ := Query.get?_of_returning h
    exact given hes hm

/-- An insertion from a query mentions the table, the query and what it gives back. -/
theorem insertQuery_within {table query : Expr} {rest : List Expr} {l : Layout}
    (h : insertQuery table query rest = .ok l) : Within (table :: query :: rest) l := by
  intro e he
  obtain ⟨b, hb, h⟩ := bind_eq_ok.mp h
  cases h
  simp only [Layout.part_mem_concat, List.mem_cons, List.not_mem_nil, or_false,
    exists_eq_or_imp, exists_eq_left] at he
  rcases he with h | h
  · exact .operand (by rcases (by simpa using h : e = table ∨ e = query) with rfl | rfl <;> simp)
  · obtain ⟨m, es, hes, hm⟩ := Query.get?_of_returning h
    exact .operand (by simp [Clause.mem_of_split hb hes hm])

/-- An insertion mentions its operands only. -/
theorem insertInto_within (es : List Expr) : Within es (insertInto es) := by
  unfold insertInto
  split
  · intro e h; simp at h
  · intro e h; simp at h
  · refine Layout.within_ofExcept fun l hl => ?_
    split at hl
    · exact insertRow_within hl
    · exact insertQuery_within hl

/-! ## Update and deletion -/

/-- The clauses of an update. -/
def updateClauses : List Clause :=
  [⟨"set", .required, true⟩, ⟨"from", .optional, true⟩, ⟨"where", .optional, false⟩,
   ⟨"returning", .optional, true⟩]

/-- One field with its new value. -/
def assignment (p : Expr × Expr) : Layout :=
  [.part p.1, " = ", .part p.2]

/-- An update of the rows of a table. -/
def update : List Expr → Layout
  | [] => .arity "update" (.atLeast 1) []
  | table :: rest =>
      .ofExcept do
        let b ← Clause.split "update" updateClauses rest
        let ps ← assignments "update" b
        return .concat
          [["UPDATE ", .part table, " SET "], .separated ", " (ps.map assignment),
           Query.fromLayout "update" b, Query.whereLayout b, Query.returningLayout b]

/-- An update mentions its operands only. -/
theorem update_within (es : List Expr) : Within es (update es) := by
  unfold update
  split
  · intro e h; simp at h
  next table rest =>
    refine Layout.within_ofExcept fun l hl e he => ?_
    obtain ⟨b, hb, hl⟩ := bind_eq_ok.mp hl
    obtain ⟨ps, hp, hl⟩ := bind_eq_ok.mp hl
    cases hl
    have given : ∀ {m es}, b.get? m = some es → e ∈ es → Reach (table :: rest) e :=
      fun hg hm => .operand (List.mem_cons_of_mem _ (Clause.mem_of_split hb hg hm))
    simp only [Layout.part_mem_concat, List.mem_cons, List.not_mem_nil, or_false,
      exists_eq_or_imp, exists_eq_left] at he
    rcases he with h | h | h | h | h
    · exact .operand (by simp_all)
    · obtain ⟨l, hl, hm⟩ := Layout.part_mem_separated.mp h
      obtain ⟨p, hp', rfl⟩ := List.mem_map.mp hl
      obtain ⟨es, hes, h1, h2⟩ := get?_of_assignments hp hp'
      rcases (by simpa [assignment] using hm : e = p.1 ∨ e = p.2) with rfl | rfl
      · exact given hes h1
      · exact given hes h2
    · obtain ⟨m, es, hes, hm⟩ := Query.get?_of_from h
      exact given hes hm
    · obtain ⟨m, es, hes, hm⟩ := Query.get?_of_where h
      exact given hes hm
    · obtain ⟨m, es, hes, hm⟩ := Query.get?_of_returning h
      exact given hes hm

/-- The clauses of a deletion. -/
def deleteClauses : List Clause :=
  [⟨"where", .optional, false⟩, ⟨"returning", .optional, true⟩]

/-- A deletion of rows of a table. -/
def deleteFrom : List Expr → Layout
  | [] => .arity "delete-from" (.atLeast 1) []
  | table :: rest =>
      .ofExcept do
        let b ← Clause.split "delete-from" deleteClauses rest
        return .concat
          [["DELETE FROM ", .part table], Query.whereLayout b, Query.returningLayout b]

/-- A deletion mentions its operands only. -/
theorem deleteFrom_within (es : List Expr) : Within es (deleteFrom es) := by
  unfold deleteFrom
  split
  · intro e h; simp at h
  next table rest =>
    refine Layout.within_ofExcept fun l hl e he => ?_
    obtain ⟨b, hb, hl⟩ := bind_eq_ok.mp hl
    cases hl
    have given : ∀ {m es}, b.get? m = some es → e ∈ es → Reach (table :: rest) e :=
      fun hg hm => .operand (List.mem_cons_of_mem _ (Clause.mem_of_split hb hg hm))
    simp only [Layout.part_mem_concat, List.mem_cons, List.not_mem_nil, or_false,
      exists_eq_or_imp, exists_eq_left] at he
    rcases he with h | h | h
    · exact .operand (by simp_all)
    · obtain ⟨m, es, hes, hm⟩ := Query.get?_of_where h
      exact given hes hm
    · obtain ⟨m, es, hes, hm⟩ := Query.get?_of_returning h
      exact given hes hm

end SqlForms.Change
