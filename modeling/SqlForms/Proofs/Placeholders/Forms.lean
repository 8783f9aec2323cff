import SqlForms.Proofs.Placeholders.Tree

/-! # Forms write every placeholder once

    Where a form finds no fault, the trees of its layout hold the
    placeholders of its operands, each as often as the operands do.  Most
    forms keep their order too; an insertion writes all fields before all
    values, and a query what makes its rows distinct before its columns.

    The definition of a table is the one form that leaves operands out, the
    values that are only tested (`Table.createTable_placeholders`); all others
    are in `Registry.forms_placeholders`. -/

namespace SqlForms

open Layout (Clean)

/-! ## Operators of a class -/

/-- A declarative operator writes all its operands, in order. -/
theorem Operator.layout_placeholders (tag : String) {o : Operator} (ho : o.isDeclarative)
    {es : List Expr} (h : Clean (o.layout tag es)) :
    (o.layout tag es).placeholders = es.flatMap Expr.placeholders := by
  cases o with
  | custom form => cases ho
  | continued form next => cases ho
  | _ =>
      rcases es with _ | ⟨x, _ | ⟨y, es⟩⟩ <;>
        simp_all [layout, before, amid]

/-! ## Queries -/

/-- A clause of a case distinction writes its condition and its value. -/
theorem Predicate.caseClause_placeholders {isLast : Bool} {e : Expr}
    (h : Clean (caseClause isLast e)) : (caseClause isLast e).placeholders = e.placeholders := by
  rw [caseClause.eq_def] at h ⊢
  split at h
  next condition value =>
    by_cases hk : condition.isKeyword "else"
    · cases isLast with
      | true => simp [hk, Expr.placeholders_of_isKeyword hk]
      | false => simp [hk] at h
    · simp [hk]
  next => simp at h

/-- The clauses of a case distinction are written in order. -/
theorem Predicate.caseClauses_placeholders {es : List Expr} (h : Clean (caseClauses es)) :
    (caseClauses es).placeholders = es.flatMap Expr.placeholders := by
  induction es with
  | nil => rfl
  | cons e es ih =>
      rw [caseClauses, Layout.clean_append] at h
      rw [caseClauses, Layout.placeholders_append, caseClause_placeholders h.1, ih h.2,
        List.flatMap_cons]

/-- The keyword of a join has no placeholder. -/
theorem From.placeholders_of_classify {e : Expr} (h : classify e ≠ .table) :
    e.placeholders = [] := by
  rw [classify.eq_def] at h
  cases hk : e.keyword? with
  | none => simp [hk] at h
  | some name => exact Expr.placeholders_of_keyword? hk

/-- The items of a from list are written in order, apart from its keywords. -/
theorem From.items_placeholders {operator : String} {first : Bool} {es : List Expr}
    (h : Clean (items operator first es)) :
    (items operator first es).placeholders = es.flatMap Expr.placeholders := by
  fun_induction items operator first es with
  | case1 => rfl
  | case2 first e hc => simp at h
  | case3 first e target rest hc ih =>
      have he : e.placeholders = [] := placeholders_of_classify (by simp [hc])
      simp [ih (by simpa using h), he]
  | case4 first e marker sql target on condition rest hc hon ih =>
      have he : e.placeholders = [] := placeholders_of_classify (by simp [hc])
      simp [ih (by simpa using h), he, Expr.placeholders_of_isKeyword hon]
  | case5 => simp at h
  | case6 => simp at h
  | case7 e rest hc ih => simp [ih (by simpa using h)]
  | case8 first e rest hc hfirst ih => simp [ih (by simpa using h)]

namespace Query

/-- A from clause writes the operands of `:from`. -/
theorem fromLayout_placeholders {operator : String} {b : Bound}
    (h : Clean (fromLayout operator b)) :
    (fromLayout operator b).placeholders =
      ((b.get? "from").getD []).flatMap Expr.placeholders := by
  rw [fromLayout.eq_def] at h ⊢
  cases hb : b.get? "from" with
  | none => rfl
  | some es =>
      simp only [hb, Layout.clean_text] at h
      show (From.layout operator es).placeholders = es.flatMap Expr.placeholders
      cases es with
      | nil => rfl
      | cons e rest =>
          rw [From.layout] at h ⊢
          by_cases hc : From.classify e = .table
          · rw [if_pos hc] at h ⊢
            exact From.items_placeholders h
          · rw [if_neg hc] at h
            simp at h

/-- After `DISTINCT ON` come the operands of `:distinct-on`. -/
theorem distinctLayout_placeholders (b : Bound) :
    (distinctLayout b).placeholders =
      ((b.get? "distinct-on").getD []).flatMap Expr.placeholders := by
  rw [distinctLayout]
  cases b.has "distinct" <;> cases b.get? "distinct-on" <;> simp

/-- A condition is the operand of `:where`. -/
theorem whereLayout_placeholders {clauses : List Clause} {operands : List Expr} {b : Bound}
    (hp : Clause.Partition clauses operands b) (hw : ⟨"where", .optional, false⟩ ∈ clauses) :
    (whereLayout b).placeholders = ((b.get? "where").getD []).flatMap Expr.placeholders := by
  rw [whereLayout, Layout.placeholders_leading, hp.toList_single? hw rfl rfl]

private theorem returningLayout_placeholders (b : Bound) :
    (returningLayout b).placeholders =
      ((b.get? "returning").getD []).flatMap Expr.placeholders :=
  Layout.placeholders_leadingAll _ _

/-- A selection writes all its operands, if not in the order they were given. -/
theorem select_placeholders {es : List Expr} (h : Clean (select es)) :
    (select es).placeholders.Perm (es.flatMap Expr.placeholders) := by
  obtain ⟨l, hl, hclean⟩ := Layout.clean_ofExcept.mp h
  rw [select, hl]
  obtain ⟨b, hb, hl⟩ := bind_eq_ok.mp hl
  split at hl
  · cases hl
  · cases hl
    rw [selectClauses, Clause.splitLeading_cons] at hb
    have hp := (Clause.readFrom_eq_ok "select" (by decide)).mp hb
    have hfrom : Clean (fromLayout "select" b) := by
      simp only [selectLayout, Layout.clean_concat, List.forall_mem_cons] at hclean
      exact hclean.2.2.2.1
    have hdistinct : (b.get? "distinct").getD [] = [] :=
      hp.getD_flag (c := ⟨"distinct", .flag, false⟩) (by simp) rfl
    have hwhere := whereLayout_placeholders hp (by simp)
    have hhaving : (b.single? "having").toList = (b.get? "having").getD [] :=
      hp.toList_single? (c := ⟨"having", .optional, false⟩) (by simp) rfl rfl
    -- The operands start with the columns; the layout has what makes them distinct first.
    have hoperands := hp.placeholders (by decide)
    simp only [List.flatMap_cons, List.flatMap_nil, Expr.placeholders_keyword, hdistinct,
      List.nil_append, List.append_nil] at hoperands
    simp only [Layout.ofExcept, selectLayout, Layout.placeholders_concat, List.flatMap_cons,
      List.flatMap_nil, distinctLayout_placeholders, Layout.placeholders_joined,
      fromLayout_placeholders hfrom, hwhere, Layout.placeholders_leading,
      Layout.placeholders_leadingAll, Layout.placeholders_atom, Layout.placeholders_nil, hhaving,
      hoperands, List.nil_append, List.append_nil]
    exact List.perm_append_comm_assoc _ _ _

end Query

/-! ## Changes to rows -/

namespace Change

/-- An even number of items is written in pairs. -/
theorem pairs_flatMap {es : List Expr} (h : es.length % 2 = 0) :
    (pairs es).flatMap (fun p => p.1.placeholders ++ p.2.placeholders) =
      es.flatMap Expr.placeholders := by
  fun_induction pairs es with
  | case1 field value rest ih =>
      have : rest.length % 2 = 0 := by simpa [Nat.add_assoc] using h
      simp [ih this]
  | case2 es hes =>
      rcases es with _ | ⟨x, _ | ⟨y, es⟩⟩
      · rfl
      · simp at h
      · exact absurd rfl (hes x y es)

/-- Assignments write the operands of `:set`. -/
theorem assignments_flatMap {operator : String} {b : Bound} {ps : List (Expr × Expr)}
    (h : assignments operator b = .ok ps) :
    ps.flatMap (fun p => p.1.placeholders ++ p.2.placeholders) =
      ((b.get? "set").getD []).flatMap Expr.placeholders := by
  simp only [assignments] at h
  split at h
  next hn =>
    cases h
    exact pairs_flatMap hn
  next => cases h

/-- Pairs taken apart hold what the pairs hold. -/
theorem unzip_perm {α β : Type} (g : α → List β) (ps : List (α × α)) :
    ((ps.map (·.1)).flatMap g ++ (ps.map (·.2)).flatMap g).Perm
      (ps.flatMap fun p => g p.1 ++ g p.2) := by
  induction ps with
  | nil => exact .refl _
  | cons p ps ih =>
      simp only [List.map_cons, List.flatMap_cons, List.append_assoc]
      refine .append_left _ ?_
      rw [← List.append_assoc]
      refine (List.perm_append_comm.append_right _).trans ?_
      rw [List.append_assoc]
      exact .append_left _ ih

/-- An inserted row writes all fields before all values. -/
theorem insertRow_placeholders {table : Expr} {rest : List Expr} {l : Layout}
    (h : insertRow table rest = .ok l) :
    l.placeholders.Perm ((table :: rest).flatMap Expr.placeholders) := by
  obtain ⟨b, hb, h⟩ := bind_eq_ok.mp h
  obtain ⟨ps, hps, h⟩ := bind_eq_ok.mp h
  cases h
  have hoperands := ((Clause.split_eq_ok "insert-into" (by decide)).mp hb).placeholders (by decide)
  simp only [rowClauses, List.flatMap_cons, List.flatMap_nil, List.append_nil] at hoperands
  have hset := unzip_perm Expr.placeholders ps
  rw [assignments_flatMap hps] at hset
  simp only [Layout.placeholders_concat, List.flatMap_cons, List.flatMap_nil,
    Layout.placeholders_atom, Layout.placeholders_part, Layout.placeholders_nil,
    Layout.placeholders_joined, Query.returningLayout_placeholders, List.nil_append,
    List.append_nil, hoperands]
  refine .append_left _ ?_
  rw [← List.append_assoc]
  exact hset.append_right _

/-- An insertion from a query writes its operands in order. -/
theorem insertQuery_placeholders {table query : Expr} {rest : List Expr} {l : Layout}
    (h : insertQuery table query rest = .ok l) :
    l.placeholders = (table :: query :: rest).flatMap Expr.placeholders := by
  obtain ⟨b, hb, h⟩ := bind_eq_ok.mp h
  cases h
  have hoperands := ((Clause.split_eq_ok "insert-into" (by decide)).mp hb).placeholders (by decide)
  simp only [queryClauses, List.flatMap_cons, List.flatMap_nil, List.append_nil] at hoperands
  simp [Query.returningLayout_placeholders, hoperands]

/-- An insertion writes all its operands. -/
theorem insertInto_placeholders {es : List Expr} (h : Clean (insertInto es)) :
    (insertInto es).placeholders.Perm (es.flatMap Expr.placeholders) := by
  rcases es with _ | ⟨table, _ | ⟨e, rest⟩⟩
  · simp [insertInto] at h
  · simp [insertInto] at h
  · obtain ⟨l, hl, -⟩ := Layout.clean_ofExcept.mp h
    rw [insertInto, hl]
    split at hl
    · exact insertRow_placeholders hl
    · exact .of_eq (insertQuery_placeholders hl)

/-- An update writes its operands in order. -/
theorem update_placeholders {es : List Expr} (h : Clean (update es)) :
    (update es).placeholders = es.flatMap Expr.placeholders := by
  cases es with
  | nil => simp [update] at h
  | cons table rest =>
      obtain ⟨l, hl, hclean⟩ := Layout.clean_ofExcept.mp h
      rw [update, hl]
      obtain ⟨b, hb, hl⟩ := bind_eq_ok.mp hl
      obtain ⟨ps, hps, hl⟩ := bind_eq_ok.mp hl
      cases hl
      have hp := (Clause.split_eq_ok "update" (by decide)).mp hb
      have hfrom : Clean (Query.fromLayout "update" b) := by
        simp only [Layout.clean_concat, List.forall_mem_cons] at hclean
        exact hclean.2.2.1
      have hwhere := Query.whereLayout_placeholders hp (by simp [updateClauses])
      have hset := assignments_flatMap hps
      have hoperands := hp.placeholders (by decide)
      simp only [updateClauses, List.flatMap_cons, List.flatMap_nil, List.append_nil]
        at hoperands
      simp [Layout.ofExcept, List.flatMap_map, assignment, Query.fromLayout_placeholders hfrom,
        Query.returningLayout_placeholders, hwhere, hset, hoperands]

/-- A deletion writes its operands in order. -/
theorem deleteFrom_placeholders {es : List Expr} (h : Clean (deleteFrom es)) :
    (deleteFrom es).placeholders = es.flatMap Expr.placeholders := by
  cases es with
  | nil => simp [deleteFrom] at h
  | cons table rest =>
      obtain ⟨l, hl, -⟩ := Layout.clean_ofExcept.mp h
      rw [deleteFrom, hl]
      obtain ⟨b, hb, hl⟩ := bind_eq_ok.mp hl
      cases hl
      have hp := (Clause.split_eq_ok "delete-from" (by decide)).mp hb
      have hwhere := Query.whereLayout_placeholders hp (by simp [deleteClauses])
      have hoperands := hp.placeholders (by decide)
      simp only [deleteClauses, List.flatMap_cons, List.flatMap_nil, List.append_nil]
        at hoperands
      simp [Layout.ofExcept, Query.returningLayout_placeholders, hwhere, hoperands]

end Change

/-! ## Tables -/

namespace Table

private theorem ReferentialAction.placeholders_of_ofExpr {e : Expr} {a : ReferentialAction}
    (h : ofExpr e = .ok a) : e.placeholders = [] :=
  Expr.placeholders_of_subst_eq e (subst_of_ofExpr h)

/-- The actions of a reference have no placeholders. -/
theorem placeholders_of_referenceActions {owner : Owner} {actions : List Expr}
    {x : ReferentialAction × ReferentialAction} (h : referenceActions owner actions = .ok x) :
    actions.flatMap Expr.placeholders = [] := by
  rw [referenceActions.eq_def] at h
  split at h
  · rfl
  next onDelete =>
    obtain ⟨d, hd, -⟩ := bind_eq_ok.mp h
    simp [ReferentialAction.placeholders_of_ofExpr hd]
  next onDelete onUpdate =>
    obtain ⟨d, hd, h⟩ := bind_eq_ok.mp h
    obtain ⟨u, hu, -⟩ := bind_eq_ok.mp h
    simp [ReferentialAction.placeholders_of_ofExpr hd, ReferentialAction.placeholders_of_ofExpr hu]
  · cases h

/-- The target of a reference is its table and its columns. -/
theorem placeholders_of_referenceTarget {owner : Owner} {target table : Expr}
    {columns : List Expr} (h : referenceTarget owner target = .ok (table, columns)) :
    target.placeholders = table.placeholders ++ columns.flatMap Expr.placeholders := by
  rw [referenceTarget.eq_def] at h
  split at h
  · cases h
    simp
  · cases h
  · cases h
    simp

/-- A reference writes its target, and its actions have no placeholders. -/
theorem reference_placeholders {owner : Owner} {target : Expr} {actions : List Expr}
    (h : Clean (reference owner target actions)) :
    (reference owner target actions).placeholders =
      (target :: actions).flatMap Expr.placeholders := by
  obtain ⟨l, hl, -⟩ := Layout.clean_ofExcept.mp h
  rw [reference, hl]
  obtain ⟨⟨table, columns⟩, ht, hl⟩ := bind_eq_ok.mp hl
  obtain ⟨⟨onDelete, onUpdate⟩, ha, hl⟩ := bind_eq_ok.mp hl
  cases hl
  rw [List.flatMap_cons, placeholders_of_referenceTarget ht, placeholders_of_referenceActions ha]
  cases columns <;> simp [Layout.ofExcept]

/-- An option writes the placeholders of its value, unless the value is only tested; a type has
    none. -/
theorem option_placeholders {owner : Owner} {key : String} {value : Expr}
    (h : Clean (option owner key value)) (ht : key = "type" → value.placeholders = []) :
    (option owner key value).placeholders =
      if key = "primary-key" ∨ key = "unique" then [] else value.placeholders := by
  rw [option.eq_def] at h ⊢
  split at h
  · simp [ht rfl]
  · simp
  · cases value.isTruthy <;> simp
  · cases value.isTruthy <;> simp
  · simp
  · split at h
    next target actions =>
      have := reference_placeholders (Layout.clean_text.mp h)
      simp [this]
    next => simp at h
  · simp at h

/-- Options that can be read have different keys, none of them seen before. -/
theorem nodup_of_readOptions {owner : Owner} {seen : List String} {items : List Expr}
    {given : List (String × Expr)} (h : readOptions owner seen items = .ok given) :
    (given.map (·.1)).Nodup ∧ ∀ k ∈ seen, k ∉ given.map (·.1) := by
  induction given generalizing seen items with
  | nil => exact ⟨List.nodup_nil, fun _ _ hk => by cases hk⟩
  | cons first more ih =>
      rcases readOptions_eq_ok h with ⟨-, h⟩ | ⟨key, value, rest, k, more, rfl, -, hs, hr, h⟩
      · cases h
      · cases h
        obtain ⟨hd, hseen⟩ := ih hr
        rw [List.map_cons]
        refine ⟨List.nodup_cons.mpr ⟨hseen k List.mem_cons_self, hd⟩, fun x hx hm => ?_⟩
        rcases List.mem_cons.mp hm with rfl | hm
        · exact hs (List.contains_iff_mem.mpr hx)
        · exact hseen x (List.mem_cons_of_mem _ hx) hm

/-- Among keys without repetition a value is found under its key. -/
theorem lookup_of_mem {α : Type} {l : List (String × α)} (hd : (l.map (·.1)).Nodup) {k : String}
    {v : α} (h : (k, v) ∈ l) : l.lookup k = some v := by
  obtain ⟨before, after, rfl⟩ := List.append_of_mem h
  rw [List.lookup_eq_some_iff]
  refine ⟨before, after, rfl, fun p hp => ?_⟩
  rw [bne_iff_ne]
  rintro rfl
  rw [List.map_append, List.nodup_append] at hd
  exact hd.2.2 p.1 (List.mem_map_of_mem hp) p.1 List.mem_cons_self rfl

/-- What the options of a column write holds the placeholders of its items without the values that
    are only tested. -/
theorem options_placeholders {owner owner' : Owner} {seen : List String} {items : List Expr}
    {given : List (String × Expr)} (hn : items.length % 2 = 0)
    (h : readOptions owner seen items = .ok given)
    (hclean : ∀ o ∈ given, Clean (option owner' o.1 o.2))
    (ht : ∀ o ∈ given, o.1 = "type" → o.2.placeholders = []) :
    given.flatMap (fun o => (option owner' o.1 o.2).placeholders) =
      (writtenOptions items).flatMap Expr.placeholders := by
  induction given generalizing seen items with
  | nil =>
      rcases readOptions_eq_ok h with ⟨hshort, -⟩ | ⟨key, value, rest, k, more, -, -, -, -, h⟩
      · obtain rfl : items = [] := List.eq_nil_of_length_eq_zero (by omega)
        rfl
      · cases h
  | cons first more ih =>
      rcases readOptions_eq_ok h with ⟨-, h⟩ | ⟨key, value, rest, k, more, rfl, hk, -, hr, h⟩
      · cases h
      · cases h
        rw [List.forall_mem_cons] at hclean ht
        have hrest : rest.length % 2 = 0 := by simpa [Nat.add_assoc] using hn
        have hkey : key = .keyword k := by
          cases key with
          | keyword name => cases hk; rfl
          | _ => cases hk
        rw [List.flatMap_cons, ih hrest hr hclean.2 ht.2,
          option_placeholders hclean.1 ht.1, writtenOptions, hkey]
        -- A tested option writes its keyword at most, so its value is left out on both sides.
        by_cases htested : k = "primary-key" ∨ k = "unique"
        · rw [if_pos htested, if_pos (by simpa [Expr.isKeyword] using htested)]
          simp
        · rw [if_neg htested, if_neg (by simpa [Expr.isKeyword] using htested)]
          simp

/-- A column writes its items, apart from the values that are only tested. -/
theorem column_placeholders {c : Expr} (h : Clean (column c)) :
    (column c).placeholders = (writtenItems c).flatMap Expr.placeholders := by
  rw [column.eq_def] at h ⊢
  split at h
  next name items =>
    obtain ⟨l, hl, hclean⟩ := Layout.clean_ofExcept.mp h
    simp only [hl]
    obtain ⟨given, hg, hl⟩ := bind_eq_ok.mp hl
    split at hl
    next type htype =>
      cases hl
      rw [options.eq_def] at hg
      split at hg
      next hn =>
        simp only [columnLayout, Layout.clean_concat, List.forall_mem_cons, List.forall_mem_map]
          at hclean
        obtain ⟨hname, -, hgiven, -⟩ := hclean
        obtain ⟨⟨s, hs⟩, -⟩ := Layout.clean_ofExcept_cons.mp
          (Layout.clean_text.mp (Layout.clean_part.mp hname))
        -- The keys differ, so the type that is written is the only one.
        have ht : ∀ o ∈ given, o.1 = "type" → o.2.placeholders = [] := by
          rintro ⟨k, v⟩ ho rfl
          rw [lookup_of_mem (nodup_of_readOptions hg).1 ho] at htype
          cases htype
          exact Expr.placeholders_of_subst_eq type (TypeName.subst_of_splitNullable hs)
        have hoptions := options_placeholders hn hg hgiven ht
        cases hnull : (TypeName.splitNullable type).2 <;>
          simp [Layout.ofExcept, columnLayout, hnull, writtenItems, List.flatMap_map, hoptions]
      next => cases hg
    next => cases hl
  next => simp at h

/-- A constraint writes its operands in order. -/
theorem constraint_placeholders {es : List Expr} (h : Clean (constraint es)) :
    (constraint es).placeholders = es.flatMap Expr.placeholders := by
  fun_induction constraint es with
  | case1 condition => simp
  | case2 c cs => simp
  | case3 c cs => simp
  | case4 c cs target actions =>
      simp only [Layout.clean_concat, List.forall_mem_cons] at h
      simp [reference_placeholders h.2.2.2.1]
  | case5 name e es ih => simp [ih (by simpa using h)]
  | case6 => simp at h

/-- A constraint of a table writes what stands in its definition. -/
theorem tableConstraint_placeholders {c : Expr} (h : Clean (tableConstraint c)) :
    (tableConstraint c).placeholders = c.placeholders := by
  rw [tableConstraint.eq_def] at h ⊢
  split at h
  · rw [Expr.placeholders_list]
    exact constraint_placeholders h
  · simp at h

/-- The definition of a table writes the placeholders of its operands without the values that are
    only tested. -/
theorem createTable_placeholders {es : List Expr} (h : Clean (createTable es)) :
    (createTable es).placeholders = (writtenOperands es).flatMap Expr.placeholders := by
  rw [createTable.eq_def] at h ⊢
  split at h
  next name c cs constraints =>
    simp only [Layout.clean_concat, List.forall_mem_cons, Layout.clean_separated,
      List.forall_mem_append, List.forall_mem_map] at h
    obtain ⟨⟨hc, hcs⟩, hts⟩ := h.2.1
    have hcolumns : cs.flatMap (fun x => (column x).placeholders) =
        cs.flatMap fun x => (writtenItems x).flatMap Expr.placeholders := by
      rw [List.flatMap_def, List.flatMap_def,
        List.map_congr_left fun x hx => column_placeholders (hcs x hx)]
    have hconstraints : constraints.flatMap (fun x => (tableConstraint x).placeholders) =
        constraints.flatMap Expr.placeholders := by
      rw [List.flatMap_def, List.flatMap_def,
        List.map_congr_left fun x hx => tableConstraint_placeholders (hts x hx)]
    simp [writtenOperands, List.flatMap_map, List.flatMap_assoc, column_placeholders hc, hcolumns,
      hconstraints]
  · simp at h
  · simp at h
  · simp at h

end Table

/-! ## Other objects of a schema -/

namespace Schema

/-- The definition of an index writes its operands in order. -/
theorem createIndex_placeholders {tag sql : String} {es : List Expr}
    (h : Clean (createIndex tag sql es)) :
    (createIndex tag sql es).placeholders = es.flatMap Expr.placeholders := by
  cases es with
  | nil => simp [createIndex] at h
  | cons name rest =>
      obtain ⟨l, hl, -⟩ := Layout.clean_ofExcept.mp h
      rw [createIndex, hl]
      obtain ⟨b, hb, rfl⟩ := map_eq_ok.mp hl
      have hp := (Clause.split_eq_ok tag (by decide)).mp hb
      have hon : (b.single? "on").toList = (b.get? "on").getD [] :=
        hp.toList_single? (c := ⟨"on", .required, false⟩) (by simp [indexClauses]) rfl rfl
      have husing : (b.single? "using").toList = (b.get? "using").getD [] :=
        hp.toList_single? (c := ⟨"using", .optional, false⟩) (by simp [indexClauses]) rfl rfl
      have hwhere := Query.whereLayout_placeholders hp (by simp [indexClauses])
      have hoperands := hp.placeholders (by decide)
      simp only [indexClauses, List.flatMap_cons, List.flatMap_nil, List.append_nil]
        at hoperands
      simp [Layout.ofExcept, indexLayout, hon, husing, hwhere, hoperands]

/-- The definition of a sequence writes its operands in order. -/
theorem createSequence_placeholders {es : List Expr} (h : Clean (createSequence es)) :
    (createSequence es).placeholders = es.flatMap Expr.placeholders := by
  cases es with
  | nil => simp [createSequence] at h
  | cons name rest =>
      obtain ⟨l, hl, -⟩ := Layout.clean_ofExcept.mp h
      rw [createSequence, hl]
      obtain ⟨b, hb, rfl⟩ := map_eq_ok.mp hl
      have hp := (Clause.split_eq_ok "create-sequence" (by decide)).mp hb
      have single : ∀ {m}, ⟨m, .optional, false⟩ ∈ sequenceClauses →
          (b.single? m).toList = (b.get? m).getD [] :=
        fun hm => hp.toList_single? hm rfl rfl
      have hcycle : (b.get? "cycle").getD [] = [] :=
        hp.getD_flag (c := ⟨"cycle", .flag, false⟩) (by simp [sequenceClauses]) rfl
      have hoperands := hp.placeholders (by decide)
      simp only [sequenceClauses, List.flatMap_cons, List.flatMap_nil, List.append_nil, hcycle]
        at hoperands
      cases hc : b.has "cycle" <;>
        simp [Layout.ofExcept, sequenceLayout, hc, hoperands,
          single (m := "increment") (by simp [sequenceClauses]),
          single (m := "min-value") (by simp [sequenceClauses]),
          single (m := "max-value") (by simp [sequenceClauses]),
          single (m := "start") (by simp [sequenceClauses]),
          single (m := "cache") (by simp [sequenceClauses])]

/-- The flags of a removal have no placeholders. -/
theorem strip_placeholders (es : List Expr) :
    (stripIfExists es).2.flatMap Expr.placeholders = es.flatMap Expr.placeholders ∧
      (stripCascade es).2.flatMap Expr.placeholders = es.flatMap Expr.placeholders := by
  constructor
  · cases es with
    | nil => rfl
    | cons e es =>
        rw [stripIfExists]
        by_cases hk : e.isKeyword "if-exists"
        · simp [hk, Expr.placeholders_of_isKeyword hk]
        · simp [hk]
  · rw [stripCascade]
    by_cases hk : es.getLast?.any (·.isKeyword "cascade")
    · rw [if_pos hk]
      cases he : es.getLast? with
      | none => simp [he] at hk
      | some e =>
          obtain ⟨before, rfl⟩ := List.getLast?_eq_some_iff.mp he
          have hkey : e.isKeyword "cascade" := by simpa using hk
          simp [Expr.placeholders_of_isKeyword hkey]
    · rw [if_neg hk]

/-- A removal writes its operands in order. -/
theorem drop_placeholders {tag kind : String} {es : List Expr} (h : Clean (drop tag kind es)) :
    (drop tag kind es).placeholders = es.flatMap Expr.placeholders := by
  simp only [drop] at h ⊢
  split at h
  next name hn =>
    rw [← (strip_placeholders es).1, ← (strip_placeholders _).2, hn]
    cases (stripIfExists es).1 <;> cases (stripCascade (stripIfExists es).2).1 <;> simp
  next => simp at h

end Schema

/-- The definition of a function has the placeholders of its operands. -/
theorem Function.createFunction_placeholders {es : List Expr} (h : Clean (createFunction es)) :
    (createFunction es).placeholders = es.flatMap Expr.placeholders := by
  rw [createFunction.eq_def] at h ⊢
  split at h
  next name arguments returns stable body =>
    obtain ⟨l, hl, hclean⟩ := Layout.clean_ofExcept.mp h
    simp only [hl]
    obtain ⟨text, hbody, hl⟩ := bind_eq_ok.mp hl
    obtain ⟨words, hstable, hl⟩ := bind_eq_ok.mp hl
    obtain ⟨types, htypes, hl⟩ := bind_eq_ok.mp hl
    cases hl
    have hreturns : returns.placeholders = [] := by
      simp only [Layout.clean_text, Layout.clean_part, Layout.clean_ofExcept_cons] at hclean
      obtain ⟨⟨s, hs⟩, -⟩ := hclean
      exact Expr.placeholders_of_subst_eq returns (TypeName.subst_of_ofExpr hs)
    have harguments : arguments.flatMap Expr.placeholders = [] := by
      refine Expr.placeholders_of_substAll_eq arguments ?_
      rw [Expr.substAll_eq_map, map_eq_self_of_mapM TypeName.subst_of_ofExpr htypes]
    have hbody' : body.placeholders = [] := by
      cases body with
      | literal v => simp
      | quoted v => simp
      | _ => cases hbody
    have hstable' : stable.placeholders = [] := by
      cases stable with
      | keyword name => simp
      | _ => cases hstable
    simp [Layout.ofExcept, hreturns, harguments, hbody', hstable']
  · simp at h
  · simp at h

/-! ## All forms -/

/-- A built-in form other than the definition of a table writes every placeholder of its operands,
    and each as often as it stands there. -/
theorem Registry.forms_placeholders :
    EveryForm fun tag layout => tag ≠ "create-table" → ∀ es, Clean (layout es) →
      (layout es).placeholders.Perm (es.flatMap Expr.placeholders) where
  membership tag sql _ _ es h := by
    rw [Predicate.membership.eq_def] at h ⊢
    split at h
    · simp
    · simp at h
  set _ es _ := by simp [Predicate.set]
  renamed _ es h := by
    rw [Predicate.renamed.eq_def] at h ⊢
    split at h
    · simp
    · simp at h
  exists_ _ es h := by
    rw [Predicate.exists_.eq_def] at h ⊢
    split at h
    · simp
    · simp at h
  between _ es h := by
    rw [Predicate.between.eq_def] at h ⊢
    split at h
    · simp
    · simp at h
  case _ es h := by
    cases es with
    | nil => simp [Predicate.case] at h
    | cons e es =>
        have h : Clean (Predicate.caseClauses (e :: es)) := by simpa [Predicate.case] using h
        simp [Predicate.case, Predicate.caseClauses_placeholders h]
  raw _ es h := by
    rw [Predicate.raw.eq_def] at h ⊢
    split at h
    next e =>
      split at h
      next s hs =>
        have he : e.placeholders = [] :=
          Expr.placeholders_of_subst_eq e (Expr.subst_of_text? (by rw [hs]; rfl))
        simp [he]
      next => simp at h
    next => simp at h
  dot _ es h := by
    rw [Predicate.dot.eq_def] at h ⊢
    split at h
    next => simp at h
    next hn => simp [hn]
  cast tag _ es h := by
    rw [Predicate.cast.eq_def] at h ⊢
    split at h
    next x type =>
      obtain ⟨⟨s, hs⟩, -⟩ := Layout.clean_ofExcept_cons.mp
        (Layout.clean_text.mp (Layout.clean_part.mp h))
      have ht : type.placeholders = [] :=
        Expr.placeholders_of_subst_eq type (TypeName.subst_of_ofExpr hs)
      simp [ht]
    next => simp at h
  suffixed tag sql _ _ es h := by
    rw [Predicate.suffixed.eq_def] at h ⊢
    split at h
    · simp
    · simp at h
  select _ es h := Query.select_placeholders h
  limit _ es h := by
    rw [Query.limit.eq_def] at h ⊢
    split at h
    · simp
    · simp
    · simp at h
  offset _ es h := by
    rw [Query.offset.eq_def] at h ⊢
    split at h
    · simp
    · simp at h
  orderBy _ es h := by
    rw [Query.orderBy.eq_def] at h ⊢
    split at h
    · simp
    · simp at h
  insertInto _ es h := Change.insertInto_placeholders h
  update _ es h := .of_eq (Change.update_placeholders h)
  deleteFrom _ es h := .of_eq (Change.deleteFrom_placeholders h)
  -- A table leaves out the values that are only tested, so it is settled apart.
  createTable h := absurd rfl h
  createIndex tag sql _ _ es h := .of_eq (Schema.createIndex_placeholders h)
  createSequence _ es h := .of_eq (Schema.createSequence_placeholders h)
  drop tag kind _ _ es h := .of_eq (Schema.drop_placeholders h)
  createFunction _ es h := .of_eq (Function.createFunction_placeholders h)

end SqlForms
