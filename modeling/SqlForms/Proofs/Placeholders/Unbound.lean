import SqlForms.Proofs.Filling
import SqlForms.Proofs.Modes
import SqlForms.Proofs.Placeholders.Slots

/-! # A placeholder that is written has to be bound

    With every value known, a tree with a placeholder has no text, unless the
    placeholder is never written: it may stand in a value that is only
    tested, and then it counts as true.

    * `Expr.Holds` says that a placeholder stands somewhere in a tree, and
      `Expr.Holds.written_or_tested` that it is one of those that are written
      or stands in a tested value;
    * a text has no slots, so a tree with a text has no placeholder that is
      written (`Compiler.placeholders_of_statement`);
    * a tree with a text has no slots among its atoms either, so nothing
      changes when trees that count as true are put in the place of its
      placeholders (`Compiler.statement_subst_of_statement`). -/

namespace SqlForms

namespace Expr

/-- Whether a placeholder stands in a tree, at any depth. -/
inductive Holds (p : Placeholder) : Expr → Prop where
  | here : Holds p (.placeholder p)
  | operand {tag : String} {es : List Expr} {x : Expr} :
      x ∈ es → Holds p x → Holds p (.operation tag es)
  | item {items : List Expr} {x : Expr} : x ∈ items → Holds p x → Holds p (.list items)

variable {p : Placeholder}

/-- What is held by a tree that is reached is held by an operand. -/
theorem Holds.of_reach {es : List Expr} {x : Expr} (hx : Reach es x) (h : x.Holds p) :
    ∃ y ∈ es, y.Holds p := by
  induction hx with
  | operand hm => exact ⟨_, hm, h⟩
  | item _ hm ih => exact ih (.item hm h)

/-- A placeholder that is written stands in the tree. -/
theorem Holds.of_mem_placeholders {e : Expr} (h : p ∈ e.placeholders) : e.Holds p := by
  rw [placeholders_eq, List.mem_append] at h
  rcases h with h | h
  · cases e with
    | placeholder q =>
        rw [List.mem_singleton.mp h]
        exact .here
    | _ => cases h
  · obtain ⟨x, hx, h⟩ := List.mem_flatMap.mp h
    have hlt := sizeOf_lt_of_mem_children hx
    have hheld := Holds.of_mem_placeholders h
    cases e with
    | operation tag es =>
        rw [children] at hx
        split at hx
        · obtain ⟨y, hy, hheld⟩ := hheld.of_reach (Table.reach_of_mem_writtenOperands hx)
          exact .operand hy hheld
        · exact .operand hx hheld
    | list items => exact .item hx hheld
    | _ => cases hx
termination_by e

end Expr

namespace Table

open SqlForms.Expr (Holds)

variable {p : Placeholder}

/-- An item of the options of a column is written, or it is a tested value. -/
theorem mem_writtenOptions_or_flags {items : List Expr} {x : Expr} (h : x ∈ items) :
    x ∈ writtenOptions items ∨ x ∈ optionFlags items := by
  fun_induction writtenOptions items with
  | case1 key value rest hk ih =>
      rw [optionFlags, if_pos hk]
      grind
  | case2 key value rest hk ih =>
      rw [optionFlags, if_neg hk]
      grind
  | case3 es _ => exact .inl h

/-- A placeholder of a column is written, or it stands in a tested value. -/
theorem written_or_tested_of_column {column : Expr} (h : p ∈ column.placeholders) :
    (∃ x ∈ writtenItems column, p ∈ x.placeholders) ∨ ∃ v ∈ columnFlags column, v.Holds p := by
  rw [writtenItems.eq_def]
  split
  next name items =>
    rw [Expr.placeholders_list] at h
    obtain ⟨x, hx, hp⟩ := List.mem_flatMap.mp h
    rcases List.mem_cons.mp hx with rfl | hx
    · exact .inl ⟨x, List.mem_cons_self, hp⟩
    · rcases mem_writtenOptions_or_flags hx with hx | hx
      · exact .inl ⟨x, List.mem_cons_of_mem _ hx, hp⟩
      · exact .inr ⟨x, hx, .of_mem_placeholders hp⟩
  next => exact .inl ⟨column, List.mem_singleton_self _, h⟩

/-- A placeholder of the definition of a table is written, or it stands in a tested value. -/
theorem written_or_tested {es : List Expr} {x : Expr} (hx : x ∈ es) (h : p ∈ x.placeholders) :
    (∃ y ∈ writtenOperands es, p ∈ y.placeholders) ∨ ∃ v ∈ tableFlags es, v.Holds p := by
  rw [writtenOperands.eq_def]
  split
  next name columns constraints =>
    rcases List.mem_cons.mp hx with rfl | hx
    · exact .inl ⟨x, List.mem_cons_self, h⟩
    rcases List.mem_cons.mp hx with rfl | hx
    · rw [Expr.placeholders_list] at h
      obtain ⟨column, hc, h⟩ := List.mem_flatMap.mp h
      rcases written_or_tested_of_column h with ⟨y, hy, h⟩ | ⟨v, hv, h⟩
      · refine .inl ⟨y, List.mem_cons_of_mem _ (List.mem_append_left _ ?_), h⟩
        exact List.mem_flatMap.mpr ⟨column, hc, hy⟩
      · exact .inr ⟨v, List.mem_flatMap.mpr ⟨column, hc, hv⟩, h⟩
    · exact .inl ⟨x, List.mem_cons_of_mem _ (List.mem_append_right _ hx), h⟩
  next => exact .inl ⟨x, hx, h⟩

end Table

namespace Expr

variable {p : Placeholder}

/-- A placeholder of a tree is written, or it stands in a tested value. -/
theorem Holds.written_or_tested {e : Expr} (h : e.Holds p) :
    p ∈ e.placeholders ∨ ∃ v ∈ e.flags, v.Holds p := by
  induction h with
  | here => exact .inl (by simp)
  | @operand tag es x hx _ ih =>
      rcases ih with h | ⟨v, hv, h⟩
      · by_cases htable : tag = "create-table"
        · rw [htable, placeholders_createTable, flags, if_pos rfl]
          rcases Table.written_or_tested hx h with ⟨y, hy, h⟩ | ⟨v, hv, h⟩
          · exact .inl (List.mem_flatMap.mpr ⟨y, hy, h⟩)
          · exact .inr ⟨v, List.mem_append_left _ hv, h⟩
        · rw [placeholders_operation htable]
          exact .inl (List.mem_flatMap.mpr ⟨x, hx, h⟩)
      · exact .inr ⟨v, List.mem_append_right _ (flags_subset_flagsAll hx hv), h⟩
  | @item items x hx _ ih =>
      rcases ih with h | ⟨v, hv, h⟩
      · rw [placeholders_list]
        exact .inl (List.mem_flatMap.mpr ⟨x, hx, h⟩)
      · exact .inr ⟨v, flags_subset_flagsAll hx hv, h⟩

end Expr

/-- Where there is no slot, nothing is put in the place of one. -/
theorem Registry.flatMap_substAtom_of_no_slot {r : Registry} {f : Placeholder → Expr}
    {as : List Atom} (h : ∀ p, .slot p ∉ as) : as.flatMap (r.substAtom f) = as := by
  induction as with
  | nil => rfl
  | cons a as ih =>
      have ha : r.substAtom f a = [a] := by
        cases a with
        | slot p => exact absurd List.mem_cons_self (h p)
        | _ => rfl
      rw [List.flatMap_cons, ha, ih fun p hp => h p (List.mem_cons_of_mem _ hp)]
      rfl

namespace Compiler

variable {c : Compiler} {e : Expr}

/-- A tree with a text has no placeholder that is written. -/
theorem placeholders_of_statement (hr : c.registry = .builtin ∨ c.registry = Registry.builtin.strict)
    {s : String} (h : c.statement e = .ok s) : e.placeholders = [] := by
  have hperm := slots_of_tree (c := c.static) (Registry.declared_of_builtin hr)
    (Registry.get?_eq_builtin hr) e (statement_eq_ok.mp h)
  rw [Mark.slots_ofChars] at hperm
  exact List.nil_perm.mp hperm

/-- A tree that could be written with slots has no text for the want of one of them. -/
theorem unbound_of_template (hr : c.registry = .builtin ∨ c.registry = Registry.builtin.strict)
    {t : Template} (ht : c.template e = .ok t) (he : e.placeholders ≠ []) :
    ∃ q ∈ e.placeholders, c.statement e = .error (.unbound q) := by
  have hd := Registry.declared_of_builtin hr
  have hms := marks_of_template ht
  have hperm := slots_of_tree (c := c.deferred) hd (Registry.get?_eq_builtin hr) e hms
  have hstatic := static_of_deferred_ok (fun f => Registry.chosen_not_mem_atoms hd f e) hms
  cases hs : Mark.slots t.fragments.marks with
  | nil =>
      rw [hs] at hperm
      exact absurd (List.nil_perm.mp hperm) he
  | cons q qs =>
      rw [hs] at hperm hstatic
      exact ⟨q, hperm.subset List.mem_cons_self, statement_eq_error.mpr hstatic⟩

/-- Where every value has to be known, atoms that are written have no slot. -/
theorem slot_not_mem_of_static {as : List Atom} {ms : List Mark} (h : c.static.marks as = .ok ms)
    (p : Placeholder) : .slot p ∉ as := by
  intro hp
  obtain ⟨before, after, rfl⟩ := List.append_of_mem hp
  obtain ⟨_, _, -, h, -⟩ := marks_append_eq_ok.mp h
  cases h

/-- A tree with a text has the same text with trees that count as true in the place of its
    placeholders. -/
theorem statement_subst_of_statement (hr : c.registry.Declared) {s : String}
    (h : c.statement e = .ok s) {f : Placeholder → Expr} (hf : ∀ p, (f p).isInert)
    (ht : ∀ p, (f p).isTruthy) : c.statement (e.subst f) = .ok s := by
  rw [statement_eq_ok] at h ⊢
  have hatoms := hr.atoms_subst hf (refuse_not_mem_of_marks h) fun p _ => ht p
  rw [hatoms, Registry.flatMap_substAtom_of_no_slot (slot_not_mem_of_static h), h]

/-- **A placeholder that is written has to be bound.**  Where a placeholder that stands anywhere in
    a tree is written, the tree has no text, for the want of a placeholder unless it has another
    fault.  Where it is not, it stands in the value of an option `:primary-key` or `:unique` of a
    column; such a tree may have a text, and that is the text whatever true values the placeholders
    stand for. -/
theorem statement_of_holds (c : Compiler)
    (hr : c.registry = .builtin ∨ c.registry = Registry.builtin.strict) (e : Expr)
    (p : Placeholder) (hp : e.Holds p) :
    (p ∈ e.placeholders → ∃ x, c.statement e = .error x) ∧
      (p ∈ e.placeholders → ∀ t, c.template e = .ok t →
        ∃ q ∈ e.placeholders, c.statement e = .error (.unbound q)) ∧
      (p ∉ e.placeholders → ∃ v ∈ e.flags, v.Holds p) ∧
      ∀ s, c.statement e = .ok s → ∀ f : Placeholder → Expr,
        (∀ q, (f q).isInert) → (∀ q, (f q).isTruthy) → c.statement (e.subst f) = .ok s := by
  refine ⟨fun h => ?_, fun h t ht => ?_, fun h => ?_, fun s hs f hf ht => ?_⟩
  · cases hs : c.statement e with
    | error x => exact ⟨x, rfl⟩
    | ok s => exact absurd (placeholders_of_statement hr hs) (List.ne_nil_of_mem h)
  · exact unbound_of_template hr ht (List.ne_nil_of_mem h)
  · exact hp.written_or_tested.resolve_left h
  · exact statement_subst_of_statement (Registry.declared_of_builtin hr) hs hf ht

/-- In a table with a placeholder for a default and one for a flag, the first has to be bound and
    the second is only tested. -/
theorem statement_of_holds_flaggedTable :
    let c : Compiler := { registry := .builtin }
    flaggedTable.Holds ⟨some "d"⟩ ∧ flaggedTable.placeholders = [⟨some "d"⟩] ∧
      (∃ x, c.statement flaggedTable = .error x) ∧
      flaggedTable.Holds ⟨some "u"⟩ ∧ ∃ v ∈ flaggedTable.flags, v.Holds ⟨some "u"⟩ := by
  intro c
  have hd : flaggedTable.Holds ⟨some "d"⟩ :=
    .operand (.tail _ (.head _)) (.item (.head _) (.item (by simp) .here))
  have hu : flaggedTable.Holds ⟨some "u"⟩ :=
    .operand (.tail _ (.head _)) (.item (.head _) (.item (by simp) .here))
  have hplaceholders : flaggedTable.placeholders = [⟨some "d"⟩] := by
    rw [flaggedTable, Expr.placeholders_createTable]
    simp [Table.writtenOperands, Table.writtenItems, Table.writtenOptions, Expr.isKeyword]
  obtain ⟨hwritten, -⟩ := statement_of_holds c (.inl rfl) flaggedTable _ hd
  obtain ⟨-, -, htested, -⟩ := statement_of_holds c (.inl rfl) flaggedTable _ hu
  refine ⟨hd, hplaceholders, hwritten ?_, hu, htested ?_⟩
  · rw [hplaceholders]
    exact List.mem_cons_self
  · rw [hplaceholders]
    decide

/-- A table whose one column is unique if `?` holds. -/
def uniqueTable : Expr :=
  .operation "create-table"
    [.identifier "t",
     .list
      [.list
        [.identifier "id", .keyword "type", .identifier "int", .keyword "unique",
         .placeholder {}]]]

/-- A placeholder that is only tested does not have to be bound. -/
theorem statement_uniqueTable :
    let c : Compiler := { registry := .builtin }
    uniqueTable.Holds {} ∧
      c.statement uniqueTable = .ok "CREATE TABLE t (id INT NOT NULL UNIQUE)" := by
  intro c
  refine ⟨.operand (.tail _ (.head _)) (.item (.head _) (.item (by simp) .here)), ?_⟩
  have hget : Registry.builtin.get? "create-table" =
      some (.custom ⟨Table.createTable, Table.createTable_within⟩) := by
    rw [Registry.get?_builtin]
    rfl
  have hlayout : Registry.builtin.layoutOf uniqueTable =
      [.text "CREATE TABLE ", .part (.identifier "t"), .text " (", .part (.identifier "id"),
       .text " ", .text "INT", .text " NOT NULL", .text " UNIQUE", .text ")"] := by
    rw [uniqueTable, Registry.layoutOf,
      Registry.layout_eq Registry.Declared.builtin.next?_eq_none, hget]
    rfl
  have ht : Name.write false "t" = "t" := by decide
  have hid : Name.write false "id" = "id" := by decide
  simp only [statement, write, writeInto, c, Registry.atoms_eq _ uniqueTable, hlayout]
  simp [Registry.atoms_eq, Registry.layoutOf, writeAtoms, writeAtom, ht, hid]
  rfl

end Compiler
end SqlForms
