import SqlForms.Proofs.Lexical.Nesting

/-! # Every form closes what it opens

    Every built-in form but the raw one closes what it opens, if its operands
    do, for all operands it accepts (`Registry.closes_forms`).  With it stand
    the operators of a class and calls, so every operation but a raw one is
    laid out that way (`Registry.closes_operation`).

    What a form refuses is no layout at all (`Layout.Clean`), so the lemmas
    about the single forms take a clean layout and go through the branches
    that leave one. -/

namespace SqlForms

open Layout (Clean Closes Follows run hasBrackets)

/-! ## Operators of a class -/

namespace Operator

/-- Whether an operator belongs to a class and its text is plain. -/
def isPlain : Operator → Bool
  | .unary sql => hasBrackets sql []
  | .trailing sql => hasBrackets sql []
  | .nary sql => hasBrackets (" " ++ sql ++ " ") []
  | .twoOrMore sql => hasBrackets (" " ++ sql ++ " ") []
  | .naryOrUnary sql => hasBrackets sql [] && hasBrackets (" " ++ sql ++ " ") []
  | .custom _ => false
  | .continued _ _ => false

/-- An operator before its operand closes what it opens. -/
theorem closes_before {sql : String} (h : hasBrackets sql []) (e : Expr) :
    Closes (before sql e) := by
  intro σ
  refine ⟨false, ?_⟩
  rw [before, Layout.run_open (by decide), Layout.run_plain h]
  simp (disch := decide)

/-- An operator between its operands closes what it opens. -/
theorem closes_amid {sql : String} (h : hasBrackets (" " ++ sql ++ " ") []) (es : List Expr) :
    Closes (amid sql es) := by
  intro σ
  refine ⟨false, ?_⟩
  rw [amid, Layout.run_concat_cons, Layout.run_open (by decide), Layout.run_nil, Option.bind_some,
    Layout.run_concat_cons, Layout.run_joined h]
  simp (disch := decide)

/-- What an operator of a class writes closes what it opens. -/
theorem closes_layout (tag : String) {o : Operator} (ho : o.isPlain) {es : List Expr}
    (h : Clean (o.layout tag es)) : Closes (o.layout tag es) := by
  cases o with
  | unary sql =>
      rcases es with _ | ⟨x, _ | ⟨y, es⟩⟩
      · simp [layout] at h
      · exact closes_before ho x
      · simp [layout] at h
  | trailing sql =>
      rcases es with _ | ⟨x, _ | ⟨y, es⟩⟩
      · simp [layout] at h
      · intro σ
        refine ⟨false, ?_⟩
        simp only [layout]
        rw [Layout.run_open (by decide), Layout.run_part, Layout.run_plain (by decide),
          Layout.run_plain ho, Layout.run_close (by decide), Layout.run_nil]
      · simp [layout] at h
  | nary sql =>
      rcases es with _ | ⟨x, _ | ⟨y, es⟩⟩
      · simp [layout] at h
      · exact fun σ => ⟨true, rfl⟩
      · exact closes_amid ho _
  | twoOrMore sql =>
      rcases es with _ | ⟨x, _ | ⟨y, es⟩⟩
      · simp [layout] at h
      · simp [layout] at h
      · exact closes_amid ho _
  | naryOrUnary sql =>
      rw [isPlain, Bool.and_eq_true] at ho
      rcases es with _ | ⟨x, _ | ⟨y, es⟩⟩
      · simp [layout] at h
      · exact closes_before ho.1 x
      · exact closes_amid ho.2 _
  | custom form => cases ho
  | continued form next => cases ho

end Operator

private theorem Registry.isPlain_of_mem {row : String × Operator} (h : row ∈ declarativeTable) :
    row.2.isPlain := by
  have key : ∀ row ∈ declarativeTable, row.2.isPlain := by decide
  exact key row h

/-! ## Expressions -/

namespace Predicate

/-- A clause of a case distinction may come right after an operand. -/
theorem follows_caseClause {isLast : Bool} {e : Expr} (h : Clean (caseClause isLast e)) :
    Follows (caseClause isLast e) := by
  intro a σ
  refine ⟨true, ?_⟩
  rw [caseClause.eq_def] at h ⊢
  split at h
  next condition value =>
    by_cases helse : condition.isKeyword "else"
    · cases isLast with
      | true => simp (disch := decide) [helse]
      | false => simp [helse] at h
    · simp (disch := decide) [helse]
  next => simp at h

/-- So may its clauses in a row. -/
theorem follows_caseClauses {es : List Expr} (h : Clean (caseClauses es)) :
    Follows (caseClauses es) := by
  induction es with
  | nil => exact Layout.follows_nil
  | cons e es ih =>
      rw [caseClauses, Layout.clean_append] at h
      exact (follows_caseClause h.1).append (ih h.2)

/-- A case distinction closes what it opens. -/
theorem closes_case {es : List Expr} (h : Clean (case es)) : Closes (case es) := by
  cases es with
  | nil => simp [case] at h
  | cons e es =>
      intro σ
      obtain ⟨b, hb⟩ := follows_caseClauses (by simpa [case] using h) false σ
      exact ⟨false, by simp (disch := decide) [case, hb]⟩

end Predicate

/-! ## Queries -/

/-- The text of a join has no brackets. -/
theorem From.hasBrackets_of_classify {e : Expr} {marker sql : String}
    (h : classify e = .join marker sql) : hasBrackets sql [] := by
  have key : ∀ row ∈ conditionalJoins, hasBrackets row.2 [] := by decide
  rw [classify.eq_def] at h
  split at h
  · cases h
  next name _ =>
    by_cases hc : name = "cross-join"
    · rw [if_pos hc] at h
      cases h
    · rw [if_neg hc] at h
      split at h
      next text hl =>
        cases h
        obtain ⟨before, after, hmem, -⟩ := List.lookup_eq_some_iff.mp hl
        exact key (marker, sql) (by rw [hmem]; simp)
      next => cases h

/-- The items of a from list close what they open, and may follow an operand, except for a table
    at the front. -/
theorem From.run_items {operator : String} {first : Bool} {es : List Expr}
    (h : Clean (items operator first es)) {b : Bool} {σ : List Char}
    (hb : first = true → b = false) :
    ∃ b', run b σ (items operator first es) = some (b', σ) := by
  fun_induction items operator first es generalizing b with
  | case1 => exact ⟨b, rfl⟩
  | case2 => simp at h
  | case3 first e target rest hc ih =>
      rw [Layout.run_plain (by decide), Layout.run_part]
      exact ih (by simpa using h) Bool.noConfusion
  | case4 first e marker text target on condition rest hc hon ih =>
      rw [Layout.run_plain (hasBrackets_of_classify hc), Layout.run_part,
        Layout.run_plain (by decide), Layout.run_part]
      exact ih (by simpa using h) Bool.noConfusion
  | case5 => simp at h
  | case6 => simp at h
  | case7 e rest hc ih =>
      rw [hb rfl, Layout.run_part]
      exact ih (by simpa using h) Bool.noConfusion
  | case8 first e rest hc hfirst ih =>
      rw [Layout.run_plain (by decide), Layout.run_part]
      exact ih (by simpa using h) Bool.noConfusion

namespace Query

/-- A from clause may come right after an operand. -/
theorem follows_fromLayout {operator : String} {b : Bound} (h : Clean (fromLayout operator b)) :
    Follows (fromLayout operator b) := by
  intro a σ
  rw [fromLayout] at h ⊢
  split at h
  next es _ =>
    rw [Layout.run_plain (by decide)]
    have h := Layout.clean_text.mp h
    cases es with
    | nil => exact ⟨false, rfl⟩
    | cons e rest =>
        rw [From.layout] at h ⊢
        by_cases ht : From.classify e = .table
        · rw [if_pos ht] at h ⊢
          exact From.run_items h fun _ => rfl
        · rw [if_neg ht] at h
          simp at h
  next => exact ⟨a, rfl⟩

/-- What follows `SELECT` and `DISTINCT` stands free, and no bracket is left open. -/
theorem run_distinctLayout (b : Bound) (σ : List Char) :
    run false σ (distinctLayout b) = some (false, σ) := by
  rw [distinctLayout, Layout.run_concat_cons]
  cases b.has "distinct" <;> cases b.get? "distinct-on" <;> simp (disch := decide)

/-- A selection closes what it opens. -/
theorem closes_select {es : List Expr} (h : Clean (select es)) : Closes (select es) := by
  obtain ⟨l, hl, hc⟩ := Layout.clean_ofExcept.mp h
  rw [select, hl]
  obtain ⟨b, -, hl⟩ := bind_eq_ok.mp hl
  split at hl
  · cases hl
  · cases hl
    intro σ
    -- Only the from list can still be refused; the other clauses are fixed words and operands.
    simp only [selectLayout, Layout.clean_concat, List.forall_mem_cons] at hc
    obtain ⟨a, ha⟩ :=
      follows_fromLayout hc.2.2.2.1 (!((b.get? "columns").getD []).isEmpty) (')' :: σ)
    refine ⟨false, ?_⟩
    simp (disch := decide) [Layout.ofExcept, selectLayout, run_distinctLayout, ha, whereLayout]

end Query

/-! ## Changes to rows -/

namespace Change

/-- An insertion closes what it opens. -/
theorem closes_insertInto {es : List Expr} (h : Clean (insertInto es)) :
    Closes (insertInto es) := by
  rcases es with _ | ⟨table, _ | ⟨e, rest⟩⟩
  · simp [insertInto] at h
  · simp [insertInto] at h
  · obtain ⟨l, hl, -⟩ := Layout.clean_ofExcept.mp h
    rw [insertInto, hl]
    split at hl
    · obtain ⟨b, -, hl⟩ := bind_eq_ok.mp hl
      obtain ⟨ps, -, hl⟩ := bind_eq_ok.mp hl
      cases hl
      intro σ
      simp (disch := decide) [Layout.ofExcept, Query.returningLayout]
    · obtain ⟨b, -, hl⟩ := bind_eq_ok.mp hl
      cases hl
      intro σ
      simp (disch := decide) [Layout.ofExcept, Query.returningLayout]

/-- Assignments in a row close what they open. -/
theorem closes_assignments (ps : List (Expr × Expr)) :
    Closes (.separated ", " (ps.map assignment)) := by
  refine Layout.closes_separated (by decide) ?_
  rw [List.forall_mem_map]
  intro p _ σ
  exact ⟨true, by simp (disch := decide) [assignment]⟩

/-- An update closes what it opens. -/
theorem closes_update {es : List Expr} (h : Clean (update es)) : Closes (update es) := by
  cases es with
  | nil => simp [update] at h
  | cons table rest =>
      obtain ⟨l, hl, hc⟩ := Layout.clean_ofExcept.mp h
      rw [update, hl]
      obtain ⟨b, -, hl⟩ := bind_eq_ok.mp hl
      obtain ⟨ps, -, hl⟩ := bind_eq_ok.mp hl
      cases hl
      intro σ
      obtain ⟨a, ha⟩ := closes_assignments ps σ
      simp only [Layout.clean_concat, List.forall_mem_cons] at hc
      obtain ⟨a', ha'⟩ := Query.follows_fromLayout hc.2.2.1 a σ
      simp (disch := decide) [Layout.ofExcept, ha, ha', Query.whereLayout, Query.returningLayout]

/-- A deletion closes what it opens. -/
theorem closes_deleteFrom {es : List Expr} (h : Clean (deleteFrom es)) :
    Closes (deleteFrom es) := by
  cases es with
  | nil => simp [deleteFrom] at h
  | cons table rest =>
      obtain ⟨l, hl, -⟩ := Layout.clean_ofExcept.mp h
      rw [deleteFrom, hl]
      obtain ⟨b, -, hl⟩ := bind_eq_ok.mp hl
      cases hl
      intro σ
      simp (disch := decide) [Layout.ofExcept, Query.whereLayout, Query.returningLayout]

end Change

/-! ## Tables -/

namespace Table

private theorem hasBrackets_sql (x : ReferentialAction) : hasBrackets x.sql [] := by
  cases x <;> decide

/-- A reference may come right after an operand. -/
theorem follows_reference {owner : Owner} {target : Expr} {actions : List Expr}
    (h : Clean (reference owner target actions)) : Follows (reference owner target actions) := by
  obtain ⟨l, hl, -⟩ := Layout.clean_ofExcept.mp h
  rw [reference, hl]
  obtain ⟨⟨table, columns⟩, -, hl⟩ := bind_eq_ok.mp hl
  obtain ⟨⟨onDelete, onUpdate⟩, -, hl⟩ := bind_eq_ok.mp hl
  cases hl
  intro a σ
  refine ⟨false, ?_⟩
  cases columns <;>
    simp (disch := decide) [Layout.ofExcept, Layout.run_plain (hasBrackets_sql _)]

/-- An option of a column may come right after an operand. -/
theorem follows_option {owner : Owner} {key : String} {value : Expr}
    (h : Clean (option owner key value)) : Follows (option owner key value) := by
  rw [option.eq_def] at h ⊢
  split at h
  · exact Layout.follows_nil
  · exact fun a σ => ⟨true, by simp (disch := decide)⟩
  · intro a σ
    cases value.isTruthy <;> simp (disch := decide)
  · intro a σ
    cases value.isTruthy <;> simp (disch := decide)
  · exact fun a σ => ⟨true, by simp (disch := decide)⟩
  · split at h
    next target actions =>
      intro a σ
      rw [Layout.run_plain (by decide)]
      exact follows_reference (Layout.clean_text.mp h) false σ
    next => simp at h
  · simp at h

/-- A column closes what it opens. -/
theorem closes_column {c : Expr} (h : Clean (column c)) : Closes (column c) := by
  rw [column.eq_def] at h ⊢
  split at h
  next name items =>
    obtain ⟨l, hl, hc⟩ := Layout.clean_ofExcept.mp h
    simp only [hl]
    obtain ⟨given, -, hl⟩ := bind_eq_ok.mp hl
    split at hl
    next type _ =>
      cases hl
      intro σ
      simp only [columnLayout, Layout.clean_concat, List.forall_mem_cons, List.forall_mem_map,
        Layout.clean_part, Layout.clean_text, Layout.clean_ofExcept_cons] at hc
      obtain ⟨⟨⟨t, ht⟩, -⟩, -, hopts, -⟩ := hc
      -- What an option adds starts with a blank, or is nothing.
      have hopts : Follows (.concat (given.map fun o => option (.column name) o.1 o.2)) := by
        refine Layout.follows_concat ?_
        rw [List.forall_mem_map]
        exact fun o ho => follows_option (hopts o ho)
      obtain ⟨b, hb⟩ := hopts false σ
      refine ⟨b, ?_⟩
      cases hn : (TypeName.splitNullable type).2 <;>
        simp (disch := decide) [Layout.ofExcept, columnLayout, Layout.run_type ht, hn, hb]
    next => cases hl
  next => simp at h

/-- A constraint closes what it opens. -/
theorem closes_constraint {es : List Expr} (h : Clean (constraint es)) :
    Closes (constraint es) := by
  fun_induction constraint es with
  | case1 condition => exact fun σ => ⟨true, by simp (disch := decide)⟩
  | case2 c cs => exact fun σ => ⟨false, by simp (disch := decide)⟩
  | case3 c cs => exact fun σ => ⟨false, by simp (disch := decide)⟩
  | case4 c cs target actions =>
      intro σ
      simp only [Layout.clean_concat, List.forall_mem_cons] at h
      obtain ⟨b, hb⟩ := follows_reference h.2.2.2.1 false σ
      exact ⟨b, by simp (disch := decide) [hb]⟩
  | case5 name x xs ih =>
      intro σ
      obtain ⟨b, hb⟩ := ih (by simpa using h) σ
      exact ⟨b, by simp (disch := decide) [hb]⟩
  | case6 => simp at h

/-- A constraint of a table closes what it opens. -/
theorem closes_tableConstraint {c : Expr} (h : Clean (tableConstraint c)) :
    Closes (tableConstraint c) := by
  rw [tableConstraint.eq_def] at h ⊢
  split at h
  · exact closes_constraint h
  · simp at h

/-- The definition of a table closes what it opens. -/
theorem closes_createTable {es : List Expr} (h : Clean (createTable es)) :
    Closes (createTable es) := by
  rw [createTable.eq_def] at h ⊢
  split at h
  next name c cs constraints =>
    simp only [Layout.clean_concat, List.forall_mem_cons, Layout.clean_separated] at h
    have hitems : Closes
        (.separated ", " ((c :: cs).map column ++ constraints.map tableConstraint)) := by
      refine Layout.closes_separated (by decide) fun l hl => ?_
      have hclean := h.2.1 l hl
      rcases List.mem_append.mp hl with hl | hl
      · obtain ⟨x, -, rfl⟩ := List.mem_map.mp hl
        exact closes_column hclean
      · obtain ⟨x, -, rfl⟩ := List.mem_map.mp hl
        exact closes_tableConstraint hclean
    intro σ
    obtain ⟨b, hb⟩ := hitems (')' :: σ)
    refine ⟨false, ?_⟩
    rw [Layout.run_concat_cons, Layout.run_plain (by decide), Layout.run_part,
      Layout.run_open (by decide), Layout.run_nil, Option.bind_some, Layout.run_concat_cons, hb]
    simp (disch := decide)
  · simp at h
  · simp at h
  · simp at h

end Table

/-! ## Other objects -/

namespace Schema

/-- The definition of an index closes what it opens. -/
theorem closes_createIndex {tag sql : String} (hs : hasBrackets sql []) {es : List Expr}
    (h : Clean (createIndex tag sql es)) : Closes (createIndex tag sql es) := by
  cases es with
  | nil => simp [createIndex] at h
  | cons name rest =>
      obtain ⟨l, hl, -⟩ := Layout.clean_ofExcept.mp h
      rw [createIndex, hl]
      obtain ⟨b, -, rfl⟩ := map_eq_ok.mp hl
      intro σ
      simp (disch := decide) [Layout.ofExcept, indexLayout, Layout.run_plain hs,
        Query.whereLayout]

/-- The definition of a sequence closes what it opens. -/
theorem closes_createSequence {es : List Expr} (h : Clean (createSequence es)) :
    Closes (createSequence es) := by
  cases es with
  | nil => simp [createSequence] at h
  | cons name rest =>
      obtain ⟨l, hl, -⟩ := Layout.clean_ofExcept.mp h
      rw [createSequence, hl]
      obtain ⟨b, -, rfl⟩ := map_eq_ok.mp hl
      intro σ
      cases hc : b.has "cycle" <;>
        simp (disch := decide) [Layout.ofExcept, sequenceLayout, hc]

/-- A removal closes what it opens. -/
theorem closes_drop {tag kind : String} (hk : hasBrackets kind []) {es : List Expr}
    (h : Clean (drop tag kind es)) : Closes (drop tag kind es) := by
  simp only [drop] at h ⊢
  split at h
  next name hn =>
    intro σ
    cases (stripIfExists es).1 <;> cases (stripCascade (stripIfExists es).2).1 <;>
      simp (disch := decide) [Layout.run_plain hk]
  next => simp at h

end Schema

namespace Function

private theorem hasBrackets_of_stability {e : Expr} {s : String} (h : stability e = .ok s) :
    hasBrackets s [] := by
  rw [stability] at h
  split at h
  · cases h; decide
  · cases h; decide
  · cases h; decide
  · cases h

/-- The types of the arguments close what they open. -/
theorem balanced_types {es : List Expr} {types : List String}
    (h : es.mapM TypeName.ofExpr = .ok types) :
    Layout.Balanced (", ".intercalate types).toList := by
  have each : ∀ cs ∈ types.map String.toList, Layout.Balanced cs := by
    induction es generalizing types with
    | nil =>
        cases h
        exact fun cs hcs => (List.not_mem_nil hcs).elim
    | cons e es ih =>
        rw [List.mapM_cons] at h
        obtain ⟨t, ht, h⟩ := bind_eq_ok.mp h
        obtain ⟨ts, hts, h⟩ := bind_eq_ok.mp h
        cases h
        rw [List.map_cons, List.forall_mem_cons]
        exact ⟨(TypeName.balanced_ofExpr ht).2, ih hts⟩
  rw [String.toList_intercalate]
  exact .intercalate (Layout.balanced_of_plain (List.all_eq_true.mp (by decide))) each

/-- The definition of a function closes what it opens; its body is one whole body. -/
theorem closes_createFunction {es : List Expr} (h : Clean (createFunction es)) :
    Closes (createFunction es) := by
  rw [createFunction.eq_def] at h ⊢
  split at h
  next name arguments returns stable body =>
    obtain ⟨l, hl, hc⟩ := Layout.clean_ofExcept.mp h
    simp only [hl]
    obtain ⟨b, -, hl⟩ := bind_eq_ok.mp hl
    obtain ⟨s, hs, hl⟩ := bind_eq_ok.mp hl
    obtain ⟨types, htypes, hl⟩ := bind_eq_ok.mp hl
    cases hl
    simp only [Layout.clean_part, Layout.clean_text, Layout.clean_ofExcept_cons] at hc
    obtain ⟨⟨t, ht⟩, -⟩ := hc
    intro σ
    refine ⟨false, ?_⟩
    rw [Layout.ofExcept, Layout.run_plain (by decide), Layout.run_part,
      Layout.run_open (by decide), Layout.run_balanced (balanced_types htypes),
      Layout.run_close (by decide), Layout.run_type ht, Layout.run_plain (by decide),
      Layout.run_plain (hasBrackets_of_stability hs), Layout.run_plain (by decide),
      Layout.run_quote, Layout.run_nil]
  · simp at h
  · simp at h

end Function

/-! ## All trees -/

namespace Registry

/-- A built-in form other than the raw one closes what it opens. -/
theorem closes_forms :
    EveryForm fun tag layout => tag ≠ "raw" → ∀ es, Clean (layout es) → Closes (layout es) where
  membership tag sql hs _ es h := by
    rw [Predicate.membership.eq_def] at h ⊢
    split at h
    · intro σ
      simp (disch := decide) [Layout.run_plain (hasBrackets_of_isWords hs)]
    · simp at h
  set _ es _ := Layout.closes_parenthesized es
  renamed _ es h := by
    rw [Predicate.renamed.eq_def] at h ⊢
    split at h
    · exact fun σ => by simp (disch := decide)
    · simp at h
  exists_ _ es h := by
    rw [Predicate.exists_.eq_def] at h ⊢
    split at h
    · exact fun σ => by simp (disch := decide)
    · simp at h
  between _ es h := by
    rw [Predicate.between.eq_def] at h ⊢
    split at h
    · exact fun σ => by simp (disch := decide)
    · simp at h
  case _ _ h := Predicate.closes_case h
  raw h := absurd rfl h
  dot _ es h := by
    rw [Predicate.dot] at h ⊢
    split at h
    · simp at h
    next hlen =>
      rw [if_neg hlen]
      exact fun σ => ⟨_, Layout.run_joined (by decide) es⟩
  cast tag _ es h := by
    rw [Predicate.cast.eq_def] at h ⊢
    split at h
    · simp only [Layout.clean_part, Layout.clean_text, Layout.clean_ofExcept_cons] at h
      obtain ⟨⟨t, ht⟩, -⟩ := h
      exact fun σ => by simp (disch := decide) [Layout.run_type ht]
    · simp at h
  suffixed tag sql hs _ es h := by
    rw [Predicate.suffixed.eq_def] at h ⊢
    split at h
    · exact fun σ => by simp [Layout.run_plain (hasBrackets_of_isWords hs)]
    · simp at h
  select _ _ h := Query.closes_select h
  limit _ es h := by
    rw [Query.limit.eq_def] at h ⊢
    split at h
    · exact fun σ => by simp (disch := decide)
    · exact fun σ => by simp (disch := decide)
    · simp at h
  offset _ es h := by
    rw [Query.offset.eq_def] at h ⊢
    split at h
    · exact fun σ => by simp (disch := decide)
    · simp at h
  orderBy _ es h := by
    rw [Query.orderBy.eq_def] at h ⊢
    split at h
    · exact fun σ => by simp (disch := decide)
    · simp at h
  insertInto _ _ h := Change.closes_insertInto h
  update _ _ h := Change.closes_update h
  deleteFrom _ _ h := Change.closes_deleteFrom h
  createTable _ _ h := Table.closes_createTable h
  createIndex _ _ hs _ _ h := Schema.closes_createIndex (hasBrackets_of_isWords hs) h
  createSequence _ _ h := Schema.closes_createSequence h
  drop _ _ hk _ _ h := Schema.closes_drop (hasBrackets_of_isWords hk) h
  createFunction _ _ h := Function.closes_createFunction h

/-- An operation of the built-in operators that is not raw closes what it opens. -/
theorem closes_operation {r : Registry} (hr : r.get? = builtin.get?) {tag : String}
    (htag : tag ≠ "raw") {es : List Expr} (h : Clean (r.layout tag es)) :
    Closes (r.layout tag es) := by
  have hnext : ∀ {t o}, r.get? t = some o → o.next? = none := by
    rw [hr]
    exact Declared.builtin.next?_eq_none
  rw [layout_eq hnext] at h ⊢
  -- The tag is not registered, or names an operator of a class or one of the forms.
  cases hg : r.get? tag with
  | none =>
      simp only [hg, unregistered] at h ⊢
      by_cases hf : r.fallback
      · rw [if_pos hf]
        exact fun σ => ⟨false, by simp (disch := decide) [call]⟩
      · rw [if_neg hf] at h
        simp at h
  | some o =>
      simp only [hg] at h ⊢
      rw [hr] at hg
      rcases List.mem_append.mp (mem_of_get?_builtin hg) with hm | hm
      · exact Operator.closes_layout tag (isPlain_of_mem hm) h
      · exact closes_forms.of_mem hm htag es h

end Registry
end SqlForms
