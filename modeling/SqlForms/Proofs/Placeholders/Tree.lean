import SqlForms.Proofs.Partition
import SqlForms.Proofs.Substitution.Forms

/-! # The placeholders of a tree

    Every placeholder of a tree is written, except for those in a value that
    is only tested: the value of an option `:primary-key` or `:unique` of a
    column of a table.  `Expr.children` are the trees right inside a tree
    without such values, and `Expr.placeholders` collects the placeholders of
    a tree through its children.

    * What holds no placeholder at all stays as it is when trees are put in
      the place of placeholders, and conversely
      (`Expr.placeholders_of_subst_eq`), so what a form looks into has none;
    * the placeholders of operands are those of the clauses they are split
      into (`Clause.Partition.placeholders`). -/

namespace SqlForms

/-! ## Trees that are written -/

namespace Table

/-- The items of the options of a column, without the values that are only tested. -/
def writtenOptions : List Expr → List Expr
  | key :: value :: rest =>
      if key.isKeyword "primary-key" || key.isKeyword "unique" then key :: writtenOptions rest
      else key :: value :: writtenOptions rest
  | es => es

/-- The items of the definition of a column, without the values that are only tested. -/
def writtenItems : Expr → List Expr
  | .list (name :: items) => name :: writtenOptions items
  | e => [e]

/-- The trees of the definition of a table, without the values that are only tested. -/
def writtenOperands : List Expr → List Expr
  | name :: .list columns :: constraints =>
      name :: (columns.flatMap writtenItems ++ constraints)
  | es => es

private theorem mem_of_mem_writtenOptions {items : List Expr} {e : Expr}
    (h : e ∈ writtenOptions items) : e ∈ items := by
  fun_induction writtenOptions items with
  | case1 key value rest hk ih => grind
  | case2 key value rest hk ih => grind
  | case3 es _ => exact h

/-- The items of a column that are written stand in it. -/
theorem reach_of_mem_writtenItems {column e : Expr} (h : e ∈ writtenItems column) :
    Reach [column] e := by
  rw [writtenItems.eq_def] at h
  split at h
  next name items =>
    refine .item (.operand (List.mem_singleton_self _)) ?_
    rcases List.mem_cons.mp h with rfl | h
    · exact List.mem_cons_self
    · exact List.mem_cons_of_mem _ (mem_of_mem_writtenOptions h)
  next => exact .operand h

/-- The trees of a table that are written stand in its operands. -/
theorem reach_of_mem_writtenOperands {es : List Expr} {e : Expr} (h : e ∈ writtenOperands es) :
    Reach es e := by
  rw [writtenOperands.eq_def] at h
  split at h
  next name columns constraints =>
    rcases List.mem_cons.mp h with rfl | h
    · exact .operand List.mem_cons_self
    rcases List.mem_append.mp h with h | h
    · obtain ⟨column, hc, h⟩ := List.mem_flatMap.mp h
      refine (reach_of_mem_writtenItems h).mono fun x hx => ?_
      rw [List.mem_singleton.mp hx]
      exact .item (show Reach _ (.list columns) from .operand (by simp)) hc
    · exact .operand (List.mem_cons_of_mem _ (List.mem_cons_of_mem _ h))
  next => exact .operand h

end Table

namespace Expr

/-- The trees right inside a tree, without the values that are only tested. -/
def children : Expr → List Expr
  | .operation tag operands =>
      if tag = "create-table" then Table.writtenOperands operands else operands
  | .list items => items
  | _ => []

/-- A tree that is a placeholder. -/
def placeholder? : Expr → Option Placeholder
  | .placeholder p => some p
  | _ => none

/-- A tree is larger than what is right inside it. -/
theorem sizeOf_lt_of_mem_children {e x : Expr} (h : x ∈ e.children) : sizeOf x < sizeOf e := by
  cases e with
  | operation tag es =>
      have hreach : Reach es x := by
        rw [children] at h
        split at h
        · exact Table.reach_of_mem_writtenOperands h
        · exact .operand h
      have := hreach.sizeOf_lt
      rw [operation.sizeOf_spec]
      omega
  | list items =>
      have := List.sizeOf_lt_of_mem (show x ∈ items from h)
      rw [list.sizeOf_spec]
      omega
  | _ => cases h

/-- The placeholders of a tree, from left to right: all but those in a value of an option
    `:primary-key` or `:unique` of a column of a table, which is only tested. -/
def placeholders (e : Expr) : List Placeholder :=
  e.placeholder?.toList ++ e.children.attach.flatMap fun x => x.1.placeholders
termination_by e
decreasing_by exact sizeOf_lt_of_mem_children x.2

/-- The placeholders of a tree are itself, if it is one, and those right inside it. -/
theorem placeholders_eq (e : Expr) :
    e.placeholders = e.placeholder?.toList ++ e.children.flatMap placeholders := by
  rw [placeholders, List.flatMap_subtype (g := placeholders) fun _ _ => rfl,
    List.unattach_attach]

@[simp] private theorem placeholders_literal (v : Value) : (literal v).placeholders = [] :=
  placeholders_eq _

@[simp] private theorem placeholders_quoted (v : Value) : (quoted v).placeholders = [] :=
  placeholders_eq _

@[simp] private theorem placeholders_identifier (n : String) : (identifier n).placeholders = [] :=
  placeholders_eq _

/-- A keyword has no placeholder. -/
@[simp] theorem placeholders_keyword (n : String) : (keyword n).placeholders = [] :=
  placeholders_eq _

@[simp] theorem placeholders_placeholder (p : Placeholder) :
    (placeholder p).placeholders = [p] :=
  placeholders_eq _

/-- A list has the placeholders of its items. -/
@[simp] theorem placeholders_list (items : List Expr) :
    (list items).placeholders = items.flatMap placeholders :=
  placeholders_eq _

/-- An operation has those of its operands, unless it defines a table. -/
theorem placeholders_operation {tag : String} (h : tag ≠ "create-table") (es : List Expr) :
    (operation tag es).placeholders = es.flatMap placeholders := by
  rw [placeholders_eq]
  show (if tag = "create-table" then _ else es).flatMap placeholders = _
  rw [if_neg h]

/-- The definition of a table has those that are written. -/
theorem placeholders_createTable (es : List Expr) :
    (operation "create-table" es).placeholders =
      (Table.writtenOperands es).flatMap placeholders :=
  placeholders_eq _

end Expr

/-- The values that are left out are the only loss: what is left of a table's definition has its
    placeholders in the same order. -/
theorem Table.placeholders_writtenOperands_sublist (es : List Expr) :
    ((writtenOperands es).flatMap Expr.placeholders).Sublist (es.flatMap Expr.placeholders) := by
  -- Values are dropped inside the options of a column and nowhere else.
  have options : ∀ items : List Expr,
      ((writtenOptions items).flatMap Expr.placeholders).Sublist
        (items.flatMap Expr.placeholders) := by
    intro items
    fun_induction writtenOptions items with
    | case1 key value rest _ ih =>
        rw [List.flatMap_cons, List.flatMap_cons, List.flatMap_cons]
        exact .append_left (ih.trans (List.sublist_append_right _ _)) _
    | case2 key value rest _ ih =>
        rw [List.flatMap_cons, List.flatMap_cons, List.flatMap_cons, List.flatMap_cons]
        exact .append_left (.append_left ih _) _
    | case3 es _ => exact .refl _
  have items : ∀ column : Expr,
      ((writtenItems column).flatMap Expr.placeholders).Sublist column.placeholders := by
    intro column
    rw [writtenItems.eq_def]
    split
    · rw [Expr.placeholders_list]
      exact .append_left (options _) _
    · simp
  have columns : ∀ columns : List Expr,
      ((columns.flatMap writtenItems).flatMap Expr.placeholders).Sublist
        (columns.flatMap Expr.placeholders) := by
    intro columns
    induction columns with
    | nil => exact .refl _
    | cons c cs ih =>
        rw [List.flatMap_cons, List.flatMap_append, List.flatMap_cons]
        exact (items c).append ih
  rw [writtenOperands.eq_def]
  split
  · rw [List.flatMap_cons, List.flatMap_append, List.flatMap_cons, List.flatMap_cons,
      Expr.placeholders_list]
    exact .append_left (.append_right (columns _) _) _
  · exact .refl _

/-! ## Trees without placeholders -/

namespace Expr

/-- The placeholders of an operation are placeholders of its operands. -/
theorem placeholders_operation_sublist (tag : String) (es : List Expr) :
    (operation tag es).placeholders.Sublist (es.flatMap placeholders) := by
  by_cases h : tag = "create-table"
  · rw [h, placeholders_createTable]
    exact Table.placeholders_writtenOperands_sublist es
  · simp [placeholders_operation h]

mutual

/-- A tree that stays as it is with constants in the place of placeholders has none. -/
theorem placeholders_of_subst_eq (e : Expr)
    (h : e.subst (fun _ => .literal .null) = e) : e.placeholders = [] := by
  cases e with
  | placeholder p => cases h
  | list items =>
      rw [subst, list.injEq] at h
      rw [placeholders_list, placeholders_of_substAll_eq items h]
  | operation tag es =>
      rw [subst, operation.injEq] at h
      have hs := placeholders_operation_sublist tag es
      rw [placeholders_of_substAll_eq es h.2] at hs
      exact List.sublist_nil.mp hs
  | _ => simp

/-- Trees that stay as they are with constants in the place of placeholders have none. -/
theorem placeholders_of_substAll_eq (es : List Expr)
    (h : substAll (fun _ => .literal .null) es = es) : es.flatMap placeholders = [] := by
  cases es with
  | nil => rfl
  | cons e es =>
      rw [substAll, List.cons.injEq] at h
      rw [List.flatMap_cons, placeholders_of_subst_eq e h.1, placeholders_of_substAll_eq es h.2]
      rfl

end

theorem placeholders_of_keyword? {e : Expr} {name : String} (h : e.keyword? = some name) :
    e.placeholders = [] := by
  cases e with
  | keyword n => exact placeholders_keyword n
  | _ => cases h

theorem placeholders_of_isKeyword {e : Expr} {name : String} (h : e.isKeyword name) :
    e.placeholders = [] := by
  rw [isKeyword_eq, beq_iff_eq] at h
  exact placeholders_of_keyword? h

end Expr

/-! ## Layouts -/

namespace Layout

/-- The placeholders of the trees of a layout, in order. -/
def placeholders (l : Layout) : List Placeholder :=
  l.flatMap fun
    | .part e => e.placeholders
    | .atom _ => []

@[simp] theorem placeholders_nil : placeholders [] = [] := rfl

@[simp] theorem placeholders_atom (a : Atom) (l : Layout) :
    placeholders (.atom a :: l) = placeholders l := rfl

/-- A tree in a layout has its placeholders there. -/
@[simp] theorem placeholders_part (e : Expr) (l : Layout) :
    placeholders (.part e :: l) = e.placeholders ++ placeholders l := rfl

@[simp] private theorem placeholders_ofExcept (x : Except Error String) (l : Layout) :
    placeholders (.ofExcept x :: l) = placeholders l := by
  cases x <;> rfl

/-- Layouts one after the other have the placeholders of both. -/
@[simp] theorem placeholders_append (l l' : Layout) :
    placeholders (l ++ l') = placeholders l ++ placeholders l' :=
  List.flatMap_append

/-- A joined row has the placeholders of its trees. -/
@[simp] theorem placeholders_joined (separator : String) (es : List Expr) :
    placeholders (joined separator es) = es.flatMap Expr.placeholders := by
  fun_induction joined separator es <;> simp_all

/-- Layouts in a row have the placeholders of each. -/
@[simp] theorem placeholders_separated (separator : String) (ls : List Layout) :
    placeholders (separated separator ls) = ls.flatMap placeholders := by
  fun_induction separated separator ls <;> simp_all

@[simp] theorem placeholders_leading (lead : String) (o : Option Expr) :
    placeholders (leading lead o) = o.toList.flatMap Expr.placeholders := by
  cases o <;> simp [leading]

@[simp] theorem placeholders_leadingAll (lead : String) (o : Option (List Expr)) :
    placeholders (leadingAll lead o) = (o.getD []).flatMap Expr.placeholders := by
  cases o <;> simp [leadingAll]

/-- Layouts one after the other have the placeholders of each. -/
@[simp] theorem placeholders_concat (ls : List Layout) :
    placeholders (concat ls) = ls.flatMap placeholders := by
  induction ls with
  | nil => rfl
  | cons l ls ih =>
      show placeholders (l ++ concat ls) = _
      rw [placeholders_append, ih, List.flatMap_cons]

@[simp] private theorem placeholders_parenthesized (es : List Expr) :
    placeholders (parenthesized es) = es.flatMap Expr.placeholders := by
  cases es <;> simp [parenthesized]

end Layout

/-! ## Clauses -/

namespace Bound

private theorem get?_eq_none {b : Bound} {marker : String} (h : marker ∉ b.markers) :
    b.get? marker = none := by
  rw [get?, List.lookup_eq_none_iff]
  rintro ⟨m, es⟩ hm
  rw [bne_iff_ne]
  rintro rfl
  exact h (marker_mem_markers hm)

/-- What is collected over clauses is collected over the markers that they are found under. -/
theorem flatMap_eq_flatMap_markers {α : Type} {g : List Expr → List α} (hg : g [] = [])
    {markers : List String} (hd : markers.Nodup) {b : Bound} (hb : b.markers.Sublist markers) :
    List.flatMap (fun m => g m.2) b = markers.flatMap fun m => g ((b.get? m).getD []) := by
  induction markers generalizing b with
  | nil =>
      obtain rfl : b = [] := List.map_eq_nil_iff.mp (List.sublist_nil.mp hb)
      rfl
  | cons marker markers ih =>
      obtain ⟨hm, hds⟩ := List.nodup_cons.mp hd
      -- The first marker was not given, or it is the first that was.
      rcases List.sublist_cons_iff.mp hb with hb | ⟨ms, hms, hb⟩
      · rw [List.flatMap_cons, get?_eq_none fun h => hm (hb.subset h), Option.getD_none, hg,
          ih hds hb, List.nil_append]
      · obtain _ | ⟨⟨m, es⟩, b⟩ := b
        · cases hms
        · obtain ⟨rfl, rfl⟩ := List.cons.inj hms
          have hfirst : get? ((m, es) :: b) m = some es := List.lookup_cons_self
          have hrest : ∀ x ∈ markers,
              g ((get? b x).getD []) = g ((get? ((m, es) :: b) x).getD []) := by
            intro x hx
            have hne : (x == m) = false := by
              rw [beq_eq_false_iff_ne]
              rintro rfl
              exact hm hx
            rw [get?, get?, List.lookup_cons, hne]
          show g es ++ List.flatMap (fun m => g m.2) b = _
          rw [List.flatMap_cons, hfirst, ih hds hb, Option.getD_some, List.flatMap_def,
            List.flatMap_def, List.map_congr_left hrest]

end Bound

namespace Clause

/-- Reading an unmarked first clause is reading it behind its marker. -/
theorem splitLeading_cons (operator : String) (c : Clause) (later : List Clause)
    (operands : List Expr) :
    splitLeading operator (c :: later) operands =
      readFrom operator (c :: later) (.keyword c.marker :: operands) := by
  have h : c.after? (.keyword c.marker :: operands) = some operands := after?_eq_some.mpr rfl
  rw [splitLeading, readFrom, h]

namespace Partition

variable {clauses : List Clause} {operands : List Expr} {b : Bound}

/-- The placeholders of operands are those of the clauses that they are split into. -/
theorem placeholders (h : Partition clauses operands b) (hd : (clauses.map (·.marker)).Nodup) :
    operands.flatMap Expr.placeholders =
      clauses.flatMap fun c => ((b.get? c.marker).getD []).flatMap Expr.placeholders := by
  have hb : b.operands.flatMap Expr.placeholders =
      List.flatMap (fun m => m.2.flatMap Expr.placeholders) b := by
    rw [Bound.operands, List.flatMap_assoc]
    simp
  rw [← h.operands_eq, hb, Bound.flatMap_eq_flatMap_markers rfl hd h.markers_sublist,
    List.flatMap_map]

/-- A bound clause admits its operands. -/
theorem admits_of_get? (h : Partition clauses operands b) {c : Clause} (hc : c ∈ clauses)
    {es : List Expr} (hes : b.get? c.marker = some es) : c.Admits es :=
  h.admits c hc es (mem_of_get? hes)

/-- A clause that takes one operand has just the operand that is looked up. -/
theorem toList_single? (h : Partition clauses operands b) {c : Clause} (hc : c ∈ clauses)
    (hf : c.presence.isFlag = false) (hr : c.repeatable = false) :
    (b.single? c.marker).toList = (b.get? c.marker).getD [] := by
  cases hes : b.get? c.marker with
  | none => simp [Bound.single?, hes]
  | some es =>
      have hadmits := h.admits_of_get? hc hes
      rw [Admits, hf, if_neg Bool.false_ne_true] at hadmits
      obtain ⟨e, rfl⟩ := List.length_eq_one_iff.mp (hadmits.2 hr)
      simp [Bound.single?, hes]

/-- A flag has no operands. -/
theorem getD_flag (h : Partition clauses operands b) {c : Clause} (hc : c ∈ clauses)
    (hf : c.presence.isFlag) : (b.get? c.marker).getD [] = [] := by
  cases hes : b.get? c.marker with
  | none => rfl
  | some es =>
      have hadmits := h.admits_of_get? hc hes
      rw [Admits, hf, if_pos rfl] at hadmits
      exact hadmits

end Partition
end Clause
end SqlForms
