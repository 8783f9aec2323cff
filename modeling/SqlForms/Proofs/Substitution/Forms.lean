import SqlForms.Proofs.Substitution.Tree

/-! # Forms and substitution

    Where a form finds no fault, it writes the operands with trees in the
    place of placeholders just as it writes the operands themselves, with the
    same trees in the place of the same placeholders.

    The clauses of a statement are found by keywords, which stay.  What a
    form looks into, a type, an action or a body, holds no placeholder when
    the form finds no fault, so it stays too.  The one test of a value is
    that of a column's options; there the condition on `Expr.flags` is used. -/

namespace SqlForms

open Layout (Clean)

variable {f : Placeholder → Expr}

/-! ## What a form looks into -/

/-- Items that a step accepts only when a function leaves them alone are left alone by it. -/
theorem map_eq_self_of_mapM {α β : Type} {g : α → α} {k : α → Except Error β}
    (hk : ∀ {a b}, k a = .ok b → g a = a) {as : List α} {bs : List β}
    (h : as.mapM k = .ok bs) : as.map g = as := by
  induction as generalizing bs with
  | nil => rfl
  | cons a as ih =>
      rw [List.mapM_cons] at h
      obtain ⟨b, hb, h⟩ := bind_eq_ok.mp h
      obtain ⟨bs, hbs, -⟩ := bind_eq_ok.mp h
      rw [List.map_cons, hk hb, ih hbs]

namespace TypeName

/-- A parameter of a type has no placeholder to replace. -/
theorem subst_of_parameter {e : Expr} {n : Nat} (h : parameter e = .ok n) : e.subst f = e := by
  cases e with
  | literal v => rfl
  | quoted v => rfl
  | _ => cases h

/-- A type holds no placeholder. -/
theorem subst_of_ofExpr {e : Expr} {s : String} (h : ofExpr e = .ok s) : e.subst f = e := by
  cases e with
  | identifier name => rfl
  | keyword name => rfl
  | operation tag operands =>
      obtain ⟨ps, hps, -⟩ := bind_eq_ok.mp h
      rw [Expr.subst, Expr.substAll_eq_map, map_eq_self_of_mapM subst_of_parameter hps]
  | _ => cases h

/-- Neither has the marker of a nullable type. -/
theorem subst_of_isNullMarker {e : Expr} (h : isNullMarker e) : e.subst f = e := by
  refine Expr.subst_of_symbol? ?_
  unfold isNullMarker at h
  split at h
  next hs => rw [hs]; rfl
  next => cases h

/-- A type that may be null holds no placeholder. -/
theorem subst_of_splitNullable {type : Expr} {s : String}
    (h : ofExpr (splitNullable type).1 = .ok s) : type.subst f = type := by
  unfold splitNullable at h
  split at h
  next tag a b =>
    by_cases ha : tag = "or" ∧ isNullMarker a
    · rw [if_pos ha] at h
      simp [Expr.subst, subst_of_isNullMarker ha.2, subst_of_ofExpr h]
    · rw [if_neg ha] at h
      by_cases hb : tag = "or" ∧ isNullMarker b
      · rw [if_pos hb] at h
        simp [Expr.subst, subst_of_isNullMarker hb.2, subst_of_ofExpr h]
      · rw [if_neg hb] at h
        exact subst_of_ofExpr h
  next tag inner =>
    by_cases hn : tag = nullMarker
    · rw [if_pos hn] at h
      simp [Expr.subst, subst_of_ofExpr h]
    · rw [if_neg hn] at h
      exact subst_of_ofExpr h
  next => exact subst_of_ofExpr h

end TypeName

namespace Table

/-- Neither has a referential action. -/
theorem ReferentialAction.subst_of_ofExpr {e : Expr} {a : ReferentialAction}
    (h : ofExpr e = .ok a) : e.subst f = e := by
  refine Expr.subst_of_symbol? ?_
  unfold ofExpr at h
  split at h
  iterate 5 next hs => rw [hs]; rfl
  next => cases h

/-- The actions of a reference hold no placeholder, and do not depend on the owner. -/
theorem referenceActions_map {owner : Owner} {actions : List Expr}
    {x : ReferentialAction × ReferentialAction} (h : referenceActions owner actions = .ok x)
    (owner' : Owner) : referenceActions owner' (actions.map (Expr.subst f)) = .ok x := by
  unfold referenceActions at h
  split at h
  · exact h
  next onDelete =>
    obtain ⟨d, hd, h⟩ := bind_eq_ok.mp h
    cases h
    simp [referenceActions, ReferentialAction.subst_of_ofExpr hd, hd]
  next onDelete onUpdate =>
    obtain ⟨d, hd, h⟩ := bind_eq_ok.mp h
    obtain ⟨u, hu, h⟩ := bind_eq_ok.mp h
    cases h
    simp [referenceActions, ReferentialAction.subst_of_ofExpr hd,
      ReferentialAction.subst_of_ofExpr hu, hd, hu]
  · cases h

end Table

/-! ## Operators of a class -/

/-- A declarative operator writes replaced operands. -/
theorem Operator.layout_subst (tag : String) {o : Operator} (ho : o.isDeclarative)
    {es : List Expr} (h : Clean (o.layout tag es)) :
    o.layout tag (es.map (Expr.subst f)) = (o.layout tag es).subst f := by
  cases o with
  | custom form => cases ho
  | continued form next => cases ho
  | _ =>
      rcases es with _ | ⟨x, _ | ⟨y, es⟩⟩ <;>
        simp_all [layout, before, amid]

section Forms

variable (hf : ∀ p, (f p).isInert)

/-! ## Expressions -/

include hf

omit hf in
/-- Raw text stays as it is. -/
theorem Predicate.raw_subst {es : List Expr} (h : Clean (raw es)) :
    raw (es.map (Expr.subst f)) = (raw es).subst f := by
  unfold raw at h
  split at h
  next e =>
    split at h
    next s hs =>
      have he : e.subst f = e := Expr.subst_of_text? (by rw [hs]; rfl)
      simp [raw, he, hs]
    next => simp at h
  next => simp at h

/-- The clauses of a case distinction are replaced one by one. -/
theorem Predicate.caseClauses_subst {es : List Expr} (h : Clean (caseClauses es)) :
    caseClauses (es.map (Expr.subst f)) = (caseClauses es).subst f := by
  induction es with
  | nil => rfl
  | cons e es ih =>
      rw [caseClauses, Layout.clean_append] at h
      rw [List.map_cons, caseClauses, caseClauses, Layout.subst_append, ih h.2,
        List.isEmpty_map]
      congr 1
      have h := h.1
      unfold caseClause at h
      split at h
      next condition value =>
        simp only [Expr.subst, Expr.substAll_eq_map, List.map_cons, List.map_nil, caseClause,
          Expr.isKeyword_subst hf]
        split at h
        next hk =>
          split at h
          next hl => simp [hk, hl]
          next => simp at h
        next hk => simp [hk]
      next => simp at h

/-- A case distinction writes replaced operands. -/
theorem Predicate.case_subst {es : List Expr} (h : Clean (case es)) :
    case (es.map (Expr.subst f)) = (case es).subst f := by
  cases es with
  | nil => simp [case] at h
  | cons e es =>
      have h : Clean (caseClauses (e :: es)) := by simpa [case] using h
      have := caseClauses_subst hf h
      simp_all [case]

/-! ## Queries -/

private theorem From.classify_subst (e : Expr) : classify (e.subst f) = classify e := by
  rw [classify, classify, Expr.keyword?_subst hf]

/-- The items of a from list are replaced one by one. -/
theorem From.items_subst {operator : String} {first : Bool} {es : List Expr}
    (h : Clean (items operator first es)) :
    items operator first (es.map (Expr.subst f)) = (items operator first es).subst f := by
  fun_induction items operator first es with
  | case1 => rfl
  | case2 first e hc => simp at h
  | case3 first e target rest hc ih =>
      simp_all [items, classify_subst hf e]
  | case4 first e marker sql target on condition rest hc hon ih =>
      have hon' : (on.subst f).isKeyword "on" := by rw [Expr.isKeyword_subst hf, hon]
      have ih := ih (by simpa using h)
      rw [items.eq_def]
      simp [classify_subst hf e, hc, hon', ih]
  | case5 => simp at h
  | case6 => simp at h
  | case7 e rest hc ih => simp_all [items, classify_subst hf e]
  | case8 first e rest hc hfirst ih => simp_all [items, classify_subst hf e]

/-- A from list writes replaced items. -/
theorem From.layout_subst {operator : String} {es : List Expr} (h : Clean (layout operator es)) :
    layout operator (es.map (Expr.subst f)) = (layout operator es).subst f := by
  cases es with
  | nil => rfl
  | cons e es =>
      rw [layout] at h
      rw [List.map_cons, layout, layout, classify_subst hf]
      split at h
      next hc =>
        rw [if_pos hc, if_pos hc]
        exact items_subst hf h
      next => simp at h

/-- A from clause writes replaced operands. -/
theorem Query.fromLayout_subst {operator : String} {b : Bound} (h : Clean (fromLayout operator b)) :
    fromLayout operator (b.map (Expr.subst f)) = (fromLayout operator b).subst f := by
  unfold fromLayout at h ⊢
  rw [Bound.get?_map]
  cases hb : b.get? "from" with
  | none => rfl
  | some es =>
      rw [hb] at h
      simp [From.layout_subst hf (Layout.clean_text.mp h)]

omit hf in
@[simp] private theorem Query.whereLayout_subst (b : Bound) :
    whereLayout (b.map (Expr.subst f)) = (whereLayout b).subst f := by
  simp [whereLayout]

omit hf in
@[simp] private theorem Query.returningLayout_subst (b : Bound) :
    returningLayout (b.map (Expr.subst f)) = (returningLayout b).subst f := by
  simp [returningLayout]

omit hf in
private theorem Query.distinctLayout_subst (b : Bound) :
    distinctLayout (b.map (Expr.subst f)) = (distinctLayout b).subst f := by
  simp only [distinctLayout, Bound.has_map, Bound.get?_map]
  cases b.has "distinct" <;> cases b.get? "distinct-on" <;> simp

/-- A selection writes replaced operands. -/
theorem Query.select_subst {es : List Expr} (h : Clean (select es)) :
    select (es.map (Expr.subst f)) = (select es).subst f := by
  obtain ⟨l, hl, hc⟩ := Layout.clean_ofExcept.mp h
  obtain ⟨b, hb, hl⟩ := bind_eq_ok.mp hl
  have hb' := Clause.splitLeading_map (Expr.keyword?_subst hf) hb
  rw [select, select, hb', hb]
  show Layout.ofExcept (if _ then _ else _) = (Layout.ofExcept (if _ then _ else _)).subst f
  rw [Bound.has_map, Bound.has_map]
  split at hl
  · cases hl
  next hd =>
    cases hl
    rw [if_neg hd, if_neg hd]
    have hfrom : Clean (fromLayout "select" b) := by
      simp only [selectLayout, Layout.clean_concat, List.forall_mem_cons] at hc
      exact hc.2.2.2.1
    have hcolumns : ((b.get? "columns").map (·.map (Expr.subst f))).getD [] =
        ((b.get? "columns").getD []).map (Expr.subst f) := by
      cases b.get? "columns" <;> rfl
    simp [Layout.ofExcept, selectLayout, distinctLayout_subst, fromLayout_subst hf hfrom,
      hcolumns]

/-! ## Changes to rows -/

omit hf in
/-- Pairs of replaced items are the replaced pairs. -/
theorem Change.pairs_map (es : List Expr) :
    pairs (es.map (Expr.subst f)) =
      (pairs es).map fun p => (p.1.subst f, p.2.subst f) := by
  fun_induction pairs es with
  | case1 field value rest ih => simp [pairs, ih]
  | case2 es hes =>
      rcases es with _ | ⟨x, _ | ⟨y, es⟩⟩
      · rfl
      · rfl
      · exact absurd rfl (hes x y es)

omit hf in
/-- Assignments of replaced operands are the replaced assignments. -/
theorem Change.assignments_map {operator : String} {b : Bound} {ps : List (Expr × Expr)}
    (h : assignments operator b = .ok ps) :
    assignments operator (b.map (Expr.subst f)) =
      .ok (ps.map fun p => (p.1.subst f, p.2.subst f)) := by
  have hitems : (((b.map (Expr.subst f)).get? "set").getD []) =
      ((b.get? "set").getD []).map (Expr.subst f) := by
    rw [Bound.get?_map]
    cases b.get? "set" <;> rfl
  simp only [assignments] at h ⊢
  rw [hitems, List.length_map, pairs_map]
  split at h
  next hn => rw [if_pos hn]; cases h; rfl
  next => cases h

/-- An inserted row writes replaced operands. -/
theorem Change.insertRow_subst {table : Expr} {rest : List Expr} {l : Layout}
    (h : insertRow table rest = .ok l) :
    insertRow (table.subst f) (rest.map (Expr.subst f)) = .ok (l.subst f) := by
  obtain ⟨b, hb, h⟩ := bind_eq_ok.mp h
  obtain ⟨ps, hps, h⟩ := bind_eq_ok.mp h
  cases h
  have hb' := Clause.split_map (Expr.keyword?_subst hf) hb
  have hps' := assignments_map (f := f) hps
  simp [insertRow, hb', hps', Function.comp_def]

/-- An insertion from a query writes replaced operands. -/
theorem Change.insertQuery_subst {table query : Expr} {rest : List Expr} {l : Layout}
    (h : insertQuery table query rest = .ok l) :
    insertQuery (table.subst f) (query.subst f) (rest.map (Expr.subst f)) = .ok (l.subst f) := by
  obtain ⟨b, hb, h⟩ := bind_eq_ok.mp h
  cases h
  have hb' := Clause.split_map (Expr.keyword?_subst hf) hb
  simp [insertQuery, hb']

/-- An insertion writes replaced operands. -/
theorem Change.insertInto_subst {es : List Expr} (h : Clean (insertInto es)) :
    insertInto (es.map (Expr.subst f)) = (insertInto es).subst f := by
  rcases es with _ | ⟨table, _ | ⟨e, rest⟩⟩
  · simp [insertInto] at h
  · simp [insertInto] at h
  · obtain ⟨l, hl, -⟩ := Layout.clean_ofExcept.mp h
    have hk := Expr.isKeyword_subst hf "set" e
    simp only [List.map_cons, insertInto, hl, hk]
    split at hl
    next he =>
      have hrow : insertRow (table.subst f) (e.subst f :: rest.map (Expr.subst f)) =
          .ok (l.subst f) := insertRow_subst hf hl
      simp [he, hrow, Layout.ofExcept]
    next he => simp [he, insertQuery_subst hf hl, Layout.ofExcept]

/-- An update writes replaced operands. -/
theorem Change.update_subst {es : List Expr} (h : Clean (update es)) :
    update (es.map (Expr.subst f)) = (update es).subst f := by
  cases es with
  | nil => simp [update] at h
  | cons table rest =>
      obtain ⟨l, hl, hc⟩ := Layout.clean_ofExcept.mp h
      obtain ⟨b, hb, hl⟩ := bind_eq_ok.mp hl
      obtain ⟨ps, hps, hl⟩ := bind_eq_ok.mp hl
      cases hl
      have hb' := Clause.split_map (Expr.keyword?_subst hf) hb
      have hps' := assignments_map (f := f) hps
      have hfrom : Clean (Query.fromLayout "update" b) := by
        simp only [Layout.clean_concat, List.forall_mem_cons] at hc
        exact hc.2.2.1
      simp [update, hb, hb', hps, hps', Layout.ofExcept, Query.fromLayout_subst hf hfrom,
        Function.comp_def, assignment]

/-- A deletion writes replaced operands. -/
theorem Change.deleteFrom_subst {es : List Expr} (h : Clean (deleteFrom es)) :
    deleteFrom (es.map (Expr.subst f)) = (deleteFrom es).subst f := by
  cases es with
  | nil => simp [deleteFrom] at h
  | cons table rest =>
      obtain ⟨l, hl, -⟩ := Layout.clean_ofExcept.mp h
      obtain ⟨b, hb, hl⟩ := bind_eq_ok.mp hl
      cases hl
      have hb' := Clause.split_map (Expr.keyword?_subst hf) hb
      simp [deleteFrom, hb, hb', Layout.ofExcept]

/-! ## Tables -/

/-- The target of a reference is read as its table and its columns, replaced. -/
theorem Table.referenceTarget_subst {owner : Owner} {target table : Expr} {columns : List Expr}
    (h : referenceTarget owner target = .ok (table, columns)) (owner' : Owner) :
    referenceTarget owner' (target.subst f) =
      .ok (table.subst f, columns.map (Expr.subst f)) := by
  cases target with
  | list items =>
      cases items with
      | nil => cases h
      | cons t cs => cases h; simp [Expr.subst, referenceTarget]
  | placeholder p =>
      cases h
      have hp := hf p
      rw [Expr.subst]
      cases hfp : f p <;> simp_all [Expr.isInert, referenceTarget]
  | _ => cases h; simp [Expr.subst, referenceTarget]

/-- A reference writes its target replaced, whoever owns it. -/
theorem Table.reference_subst {owner : Owner} {target : Expr} {actions : List Expr}
    (h : Clean (reference owner target actions)) (owner' : Owner) :
    reference owner' (target.subst f) (actions.map (Expr.subst f)) =
      (reference owner target actions).subst f := by
  obtain ⟨l, hl, -⟩ := Layout.clean_ofExcept.mp h
  obtain ⟨⟨table, columns⟩, ht, hl⟩ := bind_eq_ok.mp hl
  obtain ⟨actions', ha, -⟩ := bind_eq_ok.mp hl
  have ht' := referenceTarget_subst hf ht owner'
  have ha' := referenceActions_map (f := f) ha owner'
  cases columns <;> simp [reference, ht, ht', ha, ha', Layout.ofExcept]

/-- Options are read with their values replaced. -/
theorem Table.readOptions_subst {owner : Owner} {seen : List String} {items : List Expr}
    {given : List (String × Expr)} (h : readOptions owner seen items = .ok given)
    (owner' : Owner) :
    readOptions owner' seen (items.map (Expr.subst f)) =
      .ok (given.map fun o => (o.1, o.2.subst f)) := by
  induction given generalizing seen items with
  | nil =>
      rcases readOptions_eq_ok h with ⟨hshort, -⟩ | ⟨key, value, rest, k, more, -, -, -, -, h⟩
      · exact readOptions_short (by simpa using hshort) owner' seen
      · cases h
  | cons first more ih =>
      rcases readOptions_eq_ok h with ⟨-, h⟩ | ⟨key, value, rest, k, more, rfl, hk, hs, hr, h⟩
      · cases h
      · cases h
        have hk' : (key.subst f).keyword? = some k := by rw [Expr.keyword?_subst hf, hk]
        rw [List.map_cons, List.map_cons, readOptions]
        simp only [hk', if_neg hs, ih hr]
        rfl

omit hf in
/-- A value under a keyword that is tested is one of the tested values. -/
theorem Table.mem_optionFlags {owner : Owner} {seen : List String} {items : List Expr}
    {given : List (String × Expr)} (h : readOptions owner seen items = .ok given)
    {o : String × Expr} (ho : o ∈ given) (hk : o.1 = "primary-key" ∨ o.1 = "unique") :
    o.2 ∈ optionFlags items := by
  induction given generalizing seen items with
  | nil => cases ho
  | cons first more ih =>
      rcases readOptions_eq_ok h with ⟨-, h⟩ | ⟨key, value, rest, k, more, rfl, hkey, -, hr, h⟩
      · cases h
      · cases h
        rw [optionFlags]
        rcases List.mem_cons.mp ho with rfl | ho
        · have : (key.isKeyword "primary-key" || key.isKeyword "unique") = true := by
            rw [Expr.isKeyword_eq, Expr.isKeyword_eq, hkey]
            rcases hk with hk | hk <;> simp_all
          rw [if_pos this]
          exact List.mem_cons_self
        · split
          · exact List.mem_cons_of_mem _ (ih hr ho)
          · exact ih hr ho

/-- An option writes its value replaced, if the test of its value comes out the same. -/
theorem Table.option_subst {owner : Owner} {key : String} {value : Expr}
    (h : Clean (option owner key value))
    (hv : key = "primary-key" ∨ key = "unique" → (value.subst f).isTruthy = value.isTruthy)
    (owner' : Owner) :
    option owner' key (value.subst f) = (option owner key value).subst f := by
  unfold option at h ⊢
  split at h
  · rfl
  · rfl
  · rw [hv (.inl rfl)]
    cases value.isTruthy <;> rfl
  · rw [hv (.inr rfl)]
    cases value.isTruthy <;> rfl
  · rfl
  · split at h
    next target actions =>
      have h := reference_subst hf (Layout.clean_text.mp h) owner'
      simp [Expr.subst, h]
    next => simp at h
  · simp at h

/-- A column writes its name and its options replaced, if the tests come out the same. -/
theorem Table.columnLayout_subst {name type : Expr} {given : List (String × Expr)}
    (h : Clean (columnLayout name type given))
    (hv : ∀ o ∈ given, o.1 = "primary-key" ∨ o.1 = "unique" →
      (o.2.subst f).isTruthy = o.2.isTruthy) :
    columnLayout (name.subst f) (type.subst f) (given.map fun o => (o.1, o.2.subst f)) =
      (columnLayout name type given).subst f := by
  simp only [columnLayout, Layout.clean_concat, List.forall_mem_cons, List.forall_mem_map] at h
  obtain ⟨hname, -, hgiven, -⟩ := h
  obtain ⟨⟨s, hs⟩, -⟩ := Layout.clean_ofExcept_cons.mp
    (Layout.clean_text.mp (Layout.clean_part.mp hname))
  have hstay : type.subst f = type := TypeName.subst_of_splitNullable hs
  have hoptions : (given.map fun o => option (.column (name.subst f)) o.1 (o.2.subst f)) =
      given.map fun o => (option (.column name) o.1 o.2).subst f :=
    List.map_congr_left fun o ho => option_subst hf (hgiven o ho) (hv o ho) _
  cases hn : (TypeName.splitNullable type).2 <;>
    simp [columnLayout, hstay, hn, Function.comp_def, hoptions]

/-- A column writes what it is made of replaced, if tested placeholders stand for truthy values. -/
theorem Table.column_subst {c : Expr} (h : Clean (column c))
    (hv : ∀ p, .placeholder p ∈ columnFlags c → (f p).isTruthy) :
    column (c.subst f) = (column c).subst f := by
  unfold column at h
  split at h
  next name items =>
    obtain ⟨l, hl, hc⟩ := Layout.clean_ofExcept.mp h
    obtain ⟨given, hg, hl⟩ := bind_eq_ok.mp hl
    split at hl
    next type htype =>
      cases hl
      unfold options at hg
      split at hg
      next hn =>
        have hg' := readOptions_subst hf hg (.column (name.subst f))
        have hlookup := lookup_map_snd (Expr.subst f) "type" given
        have hlayout := columnLayout_subst hf hc fun o ho hk =>
          Expr.isTruthy_subst fun p hp => hv p (hp ▸ mem_optionFlags hg ho hk)
        simp [Expr.subst, column, options, hn, hg, hg', htype, hlookup, hlayout, Layout.ofExcept]
      next => cases hg
    next => cases hl
  next => simp at h

/-- A constraint writes replaced operands. -/
theorem Table.constraint_subst {es : List Expr} (h : Clean (constraint es)) :
    constraint (es.map (Expr.subst f)) = (constraint es).subst f := by
  fun_induction constraint es with
  | case1 condition => rfl
  | case2 c cs => simp [Expr.subst, constraint]
  | case3 c cs => simp [Expr.subst, constraint]
  | case4 c cs target actions =>
      simp only [Layout.clean_concat, List.forall_mem_cons] at h
      have href := reference_subst hf h.2.2.2.1 .foreignKey
      simp [Expr.subst, constraint, href]
  | case5 name e es ih =>
      have ih := ih (by simpa using h)
      simp_all [Expr.subst, constraint]
  | case6 => simp at h

/-- A constraint of a table writes what it is made of replaced. -/
theorem Table.tableConstraint_subst {c : Expr} (h : Clean (tableConstraint c)) :
    tableConstraint (c.subst f) = (tableConstraint c).subst f := by
  unfold tableConstraint at h
  split at h
  next e es =>
    have := constraint_subst hf h
    simp_all [Expr.subst, tableConstraint]
  next => simp at h

/-- The definition of a table writes replaced operands, if tested placeholders stand for truthy
    values. -/
theorem Table.createTable_subst {es : List Expr} (h : Clean (createTable es))
    (hv : ∀ p, .placeholder p ∈ tableFlags es → (f p).isTruthy) :
    createTable (es.map (Expr.subst f)) = (createTable es).subst f := by
  unfold createTable at h
  split at h
  next name c cs constraints =>
    simp only [Layout.clean_concat, List.forall_mem_cons, Layout.clean_separated,
      List.forall_mem_append, List.forall_mem_map] at h
    obtain ⟨⟨hc, hcs⟩, hts⟩ := h.2.1
    have flags : ∀ x ∈ c :: cs, ∀ p, .placeholder p ∈ columnFlags x → (f p).isTruthy :=
      fun x hx p hp => hv p (List.mem_flatMap.mpr ⟨x, hx, hp⟩)
    have hfirst := column_subst hf hc (flags c List.mem_cons_self)
    have hmore : cs.map (column ∘ Expr.subst f) = cs.map (Layout.subst f ∘ column) :=
      List.map_congr_left fun x hx =>
        column_subst hf (hcs x hx) (flags x (List.mem_cons_of_mem _ hx))
    have hconstraints : constraints.map (tableConstraint ∘ Expr.subst f) =
        constraints.map (Layout.subst f ∘ tableConstraint) :=
      List.map_congr_left fun x hx => tableConstraint_subst hf (hts x hx)
    simp only [Expr.subst, Expr.substAll_eq_map, List.map_cons, createTable, List.map_map,
      hfirst, hmore, hconstraints]
    simp
  · simp at h
  · simp at h
  · simp at h

/-! ## Other objects of a schema -/

/-- Statements that write a name and clauses, and do not look into either. -/
theorem Schema.split_subst {operator : String} {clauses : List Clause} {rest : List Expr}
    {layout layout' : Bound → Layout}
    (hl : ∀ b, layout' (b.map (Expr.subst f)) = (layout b).subst f)
    (h : Clean (.ofExcept ((Clause.split operator clauses rest).map layout))) :
    Layout.ofExcept ((Clause.split operator clauses (rest.map (Expr.subst f))).map layout') =
      (Layout.ofExcept ((Clause.split operator clauses rest).map layout)).subst f := by
  obtain ⟨l, hs, -⟩ := Layout.clean_ofExcept.mp h
  obtain ⟨b, hb, -⟩ := map_eq_ok.mp hs
  rw [Clause.split_map (Expr.keyword?_subst hf) hb, hb]
  exact hl b

/-- The definition of an index writes replaced operands. -/
theorem Schema.createIndex_subst (tag sql : String) {es : List Expr}
    (h : Clean (createIndex tag sql es)) :
    createIndex tag sql (es.map (Expr.subst f)) = (createIndex tag sql es).subst f := by
  cases es with
  | nil => simp [createIndex] at h
  | cons name rest =>
      refine split_subst hf (fun b => ?_) h
      have hfields : ((b.get? "fields").map (·.map (Expr.subst f))).getD [] =
          ((b.get? "fields").getD []).map (Expr.subst f) := by
        cases b.get? "fields" <;> rfl
      simp [indexLayout, hfields]

/-- The definition of a sequence writes replaced operands. -/
theorem Schema.createSequence_subst {es : List Expr} (h : Clean (createSequence es)) :
    createSequence (es.map (Expr.subst f)) = (createSequence es).subst f := by
  cases es with
  | nil => simp [createSequence] at h
  | cons name rest =>
      refine split_subst hf (fun b => ?_) h
      cases hc : b.has "cycle" <;> simp [sequenceLayout, hc]

/-- The flags of a removal are found in replaced operands as well. -/
theorem Schema.strip_map (es : List Expr) :
    stripIfExists (es.map (Expr.subst f)) =
        ((stripIfExists es).1, (stripIfExists es).2.map (Expr.subst f)) ∧
      stripCascade (es.map (Expr.subst f)) =
        ((stripCascade es).1, (stripCascade es).2.map (Expr.subst f)) := by
  constructor
  · cases es with
    | nil => rfl
    | cons e es =>
        simp only [List.map_cons, stripIfExists, Expr.isKeyword_subst hf]
        split <;> rfl
  · have hlast : ((es.map (Expr.subst f)).getLast?.any (·.isKeyword "cascade")) =
        es.getLast?.any (·.isKeyword "cascade") := by
      rw [List.getLast?_map]
      cases es.getLast? with
      | none => rfl
      | some e => exact Expr.isKeyword_subst hf _ e
    rw [stripCascade, stripCascade, hlast]
    split
    · rw [List.map_dropLast]
    · rfl

/-- A removal writes replaced operands. -/
theorem Schema.drop_subst (tag kind : String) {es : List Expr} (h : Clean (drop tag kind es)) :
    drop tag kind (es.map (Expr.subst f)) = (drop tag kind es).subst f := by
  simp only [drop] at h ⊢
  rw [(strip_map hf es).1, (strip_map hf _).2]
  split at h
  next name hn =>
    rw [hn]
    cases (stripIfExists es).1 <;> cases (stripCascade (stripIfExists es).2).1 <;> simp
  next => simp at h

omit hf in
/-- The definition of a function writes replaced operands. -/
theorem Function.createFunction_subst {es : List Expr} (h : Clean (createFunction es)) :
    createFunction (es.map (Expr.subst f)) = (createFunction es).subst f := by
  unfold createFunction at h
  split at h
  next name arguments returns stable body =>
    obtain ⟨l, hl, hc⟩ := Layout.clean_ofExcept.mp h
    obtain ⟨text, hbody, hl⟩ := bind_eq_ok.mp hl
    obtain ⟨words, hstable, hl⟩ := bind_eq_ok.mp hl
    obtain ⟨types, htypes, hl⟩ := bind_eq_ok.mp hl
    cases hl
    have hreturns : returns.subst f = returns := by
      simp only [Layout.clean_text, Layout.clean_part, Layout.clean_ofExcept_cons] at hc
      obtain ⟨⟨s, hs⟩, -⟩ := hc
      exact TypeName.subst_of_ofExpr hs
    have hbody' : body.subst f = body := by
      refine Expr.subst_of_text? ?_
      unfold bodyText at hbody
      split at hbody
      next ht => rw [ht]; rfl
      next => cases hbody
    have hstable' : stable.subst f = stable := by
      cases stable with
      | keyword name => rfl
      | _ => cases hstable
    have harguments := map_eq_self_of_mapM (TypeName.subst_of_ofExpr (f := f)) htypes
    simp [Expr.subst, createFunction, hreturns, hbody', hstable', harguments, hbody, hstable,
      htypes, Layout.ofExcept]
  · simp at h
  · simp at h

/-! ## All forms -/

/-- A built-in form writes operands with trees in the place of placeholders as it writes the
    operands themselves. -/
theorem Registry.forms_subst :
    EveryForm fun tag layout => ∀ es, Clean (layout es) →
      (tag = "create-table" → ∀ p, .placeholder p ∈ Table.tableFlags es → (f p).isTruthy) →
      layout (es.map (Expr.subst f)) = (layout es).subst f where
  membership tag sql _ es h _ := by
    unfold Predicate.membership at h
    split at h
    · rfl
    · simp at h
  set es _ _ := by simp [Predicate.set]
  renamed es h _ := by
    unfold Predicate.renamed at h
    split at h
    · rfl
    · simp at h
  exists_ es h _ := by
    unfold Predicate.exists_ at h
    split at h
    · rfl
    · simp at h
  between es h _ := by
    unfold Predicate.between at h
    split at h
    · rfl
    · simp at h
  case es h _ := Predicate.case_subst hf h
  raw es h _ := Predicate.raw_subst h
  dot es h _ := by
    unfold Predicate.dot at h
    split at h
    next => simp at h
    next hn => simp [Predicate.dot, hn]
  cast tag es h _ := by
    unfold Predicate.cast at h
    split at h
    next x type =>
      obtain ⟨⟨s, hs⟩, -⟩ := Layout.clean_ofExcept_cons.mp
        (Layout.clean_text.mp (Layout.clean_part.mp h))
      simp [Predicate.cast, TypeName.subst_of_ofExpr hs]
    next => simp at h
  suffixed tag sql _ es h _ := by
    unfold Predicate.suffixed at h
    split at h
    · rfl
    · simp at h
  select es h _ := Query.select_subst hf h
  limit es h _ := by
    unfold Query.limit at h
    split at h
    · rfl
    · rfl
    · simp at h
  offset es h _ := by
    unfold Query.offset at h
    split at h
    · rfl
    · simp at h
  orderBy es h _ := by
    unfold Query.orderBy at h
    split at h
    · simp [Query.orderBy]
    · simp at h
  insertInto es h _ := Change.insertInto_subst hf h
  update es h _ := Change.update_subst hf h
  deleteFrom es h _ := Change.deleteFrom_subst hf h
  -- The one form that tests operands without writing them.
  createTable es h hv := Table.createTable_subst hf h (hv rfl)
  createIndex tag sql _ es h _ := Schema.createIndex_subst hf tag sql h
  createSequence es h _ := Schema.createSequence_subst hf h
  drop tag kind _ es h _ := Schema.drop_subst hf tag kind h
  createFunction es h _ := Function.createFunction_subst h

end Forms
end SqlForms
