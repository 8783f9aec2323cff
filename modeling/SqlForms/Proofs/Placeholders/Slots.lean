import SqlForms.Proofs.Placeholders.Forms
import SqlForms.Proofs.Writing

/-! # The slots of a template are the placeholders of its tree

    Every placeholder that is written leaves one slot.  The step is a layout:
    its texts leave no slot, so what it leaves are the slots of its trees
    (`Compiler.slots_of_layout`), and these hold the placeholders of the tree
    the layout belongs to (`Registry.layoutOf_placeholders`).  The tree
    follows by induction along its layouts. -/

namespace SqlForms

namespace Registry

/-- A tree that is no placeholder itself and has no fault is laid out with its placeholders. -/
theorem layoutOf_placeholders {r : Registry} (hr : r.get? = builtin.get?) {e : Expr}
    (he : ∀ p, e ≠ .placeholder p) (h : (r.layoutOf e).Clean) :
    (r.layoutOf e).placeholders.Perm e.placeholders := by
  have hnext : ∀ {t o}, r.get? t = some o → o.next? = none := by
    rw [hr]
    exact Declared.builtin.next?_eq_none
  cases e with
  | placeholder p => exact absurd rfl (he p)
  | list items => simp [layoutOf]
  | operation tag es =>
      rw [layoutOf, layout_eq hnext, hr] at h ⊢
      -- The definition of a table is the one operation that does not write all its operands.
      by_cases htable : tag = "create-table"
      · have hget : builtin.get? "create-table" =
            some (.custom ⟨Table.createTable, Table.createTable_within⟩) := by
          rw [get?_builtin]
          rfl
        rw [htable, hget] at h ⊢
        rw [Expr.placeholders_createTable]
        exact .of_eq (Table.createTable_placeholders h)
      · rw [Expr.placeholders_operation htable]
        cases hg : builtin.get? tag with
        | none =>
            simp only [hg, unregistered] at h ⊢
            by_cases hf : r.fallback
            · rw [if_pos hf]
              simp [call]
            · rw [if_neg hf] at h
              simp at h
        | some o =>
            simp only [hg] at h ⊢
            rcases List.mem_append.mp (mem_of_get?_builtin hg) with hm | hm
            · exact .of_eq (Operator.layout_placeholders tag (isDeclarative_of_mem hm) h)
            · exact forms_placeholders.of_mem hm htable es h
  | _ => simp [layoutOf]

/-- Only a placeholder is laid out as a slot. -/
theorem Declared.slot_not_mem_layoutOf {r : Registry} (hr : r.Declared) {e : Expr}
    (he : ∀ p, e ≠ .placeholder p) (p : Placeholder) : .atom (.slot p) ∉ r.layoutOf e := by
  intro h
  rcases hr.atom_mem_layoutOf h with h | ⟨n, h⟩ | ⟨v, h⟩ | ⟨q, hq, -⟩
  · cases h
  · cases h
  · cases h
  · exact he q hq

end Registry

namespace Compiler

variable {c : Compiler}

/-- A layout leaves the slots of its trees. -/
theorem slots_of_layout {l : Layout} (hl : ∀ p, .atom (.slot p) ∉ l)
    (hparts : ∀ x, .part x ∈ l → ∀ ms, c.marks (c.registry.atoms x) = .ok ms →
      (Mark.slots ms).Perm x.placeholders)
    {ms : List Mark} (h : c.marks (c.registry.atomsOf l) = .ok ms) :
    (Mark.slots ms).Perm l.placeholders := by
  induction l generalizing ms with
  | nil =>
      cases h
      exact .refl _
  | cons piece l ih =>
      have ih : ∀ ms, c.marks (c.registry.atomsOf l) = .ok ms →
          (Mark.slots ms).Perm (Layout.placeholders l) := fun ms =>
        ih (fun p hp => hl p (List.mem_cons_of_mem _ hp))
          fun x hx => hparts x (List.mem_cons_of_mem _ hx)
      cases piece with
      | atom a =>
          obtain ⟨x, hx, h⟩ := bind_eq_ok.mp h
          obtain ⟨y, hy, h⟩ := bind_eq_ok.mp h
          cases h
          have hs : ∀ p, a ≠ .slot p := by
            rintro p rfl
            exact hl p List.mem_cons_self
          -- Only a slot leaves a slot; every other atom writes text.
          obtain ⟨cs, rfl⟩ := atomMarks_eq_ofChars hs hx
          rw [Mark.slots_append, Mark.slots_ofChars, List.nil_append, Layout.placeholders_atom]
          exact ih y hy
      | part x =>
          rw [Registry.atomsOf_part] at h
          obtain ⟨u, v, hu, hv, rfl⟩ := marks_append_eq_ok.mp h
          rw [Mark.slots_append, Layout.placeholders_part]
          exact (hparts x List.mem_cons_self u hu).append (ih v hv)

/-- What is written for a tree has a slot for each of its placeholders. -/
theorem slots_of_tree (hd : c.registry.Declared) (hr : c.registry.get? = Registry.builtin.get?)
    (e : Expr) {ms : List Mark} (h : c.marks (c.registry.atoms e) = .ok ms) :
    (Mark.slots ms).Perm e.placeholders := by
  induction e using c.registry.induction generalizing ms with
  | step e ih =>
      rw [Registry.atoms_eq] at h
      by_cases he : ∃ p, e = .placeholder p
      · obtain ⟨p, rfl⟩ := he
        rw [Expr.placeholders_placeholder]
        cases hm : c.mode with
        | static => simp [Registry.layoutOf, marks, atomMarks, hm] at h
        | deferred =>
            rw [Registry.layoutOf, Registry.atomsOf_atom, marks, atomMarks, hm] at h
            cases h
            exact .refl _
      · have he : ∀ p, e ≠ .placeholder p := fun p hp => he ⟨p, hp⟩
        have hclean : (c.registry.layoutOf e).Clean := fun x hx =>
          refuse_not_mem_of_marks h x (Registry.mem_atomsOf.mpr (.inl hx))
        exact (slots_of_layout (hd.slot_not_mem_layoutOf he) (fun x hx _ => ih x hx) h).trans
          (Registry.layoutOf_placeholders hr he hclean)

/-- **No placeholder is lost, and none comes twice.**  The slots of a template are the
    placeholders of its tree in some order, without those in a value of an option `:primary-key`
    or `:unique` of a column of a table. -/
theorem slots_perm_placeholders (c : Compiler)
    (hr : c.registry = .builtin ∨ c.registry = Registry.builtin.strict) (e : Expr) (t : Template)
    (ht : c.template e = .ok t) : t.slots.Perm e.placeholders := by
  rw [Template.slots, Fragments.slots_eq]
  exact slots_of_tree (c := c.deferred) (Registry.declared_of_builtin hr)
    (Registry.get?_eq_builtin hr) e (marks_of_template ht)

/-- The insertion of a row whose fields are to come as well as their values. -/
def rowToCome : Expr :=
  .operation "insert-into"
    [.identifier "t", .keyword "set", .placeholder ⟨some "f"⟩, .placeholder ⟨some "x"⟩,
     .placeholder ⟨some "g"⟩, .placeholder ⟨some "y"⟩]

/-- The fields are asked for before the values, though they stand in turn. -/
theorem slots_perm_placeholders_rowToCome :
    let c : Compiler := { registry := .builtin }
    ∃ t, c.template rowToCome = .ok t ∧
      t.slots = [⟨some "f"⟩, ⟨some "g"⟩, ⟨some "x"⟩, ⟨some "y"⟩] ∧
      rowToCome.placeholders = [⟨some "f"⟩, ⟨some "x"⟩, ⟨some "g"⟩, ⟨some "y"⟩] ∧
      t.slots.Perm rowToCome.placeholders := by
  intro c
  have hget : Registry.builtin.get? "insert-into" =
      some (.custom ⟨Change.insertInto, Change.insertInto_within⟩) := by
    rw [Registry.get?_builtin]
    rfl
  have hlayout : Registry.builtin.layoutOf rowToCome =
      [.text "INSERT INTO ", .part (.identifier "t"), .text " (",
       .part (.placeholder ⟨some "f"⟩), .text ", ", .part (.placeholder ⟨some "g"⟩),
       .text ") VALUES (", .part (.placeholder ⟨some "x"⟩), .text ", ",
       .part (.placeholder ⟨some "y"⟩), .text ")"] := by
    rw [rowToCome, Registry.layoutOf,
      Registry.layout_eq Registry.Declared.builtin.next?_eq_none, hget]
    rfl
  have htemplate : c.template rowToCome =
      .ok ⟨⟨[.text "INSERT INTO t (", .slot ⟨some "f"⟩, .text ", ", .slot ⟨some "g"⟩,
        .text ") VALUES (", .slot ⟨some "x"⟩, .text ", ", .slot ⟨some "y"⟩, .text ")"]⟩, {}⟩ := by
    have ht : Name.write false "t" = "t" := by decide
    simp only [template, write, writeInto, c, Registry.atoms_eq _ rowToCome, hlayout]
    simp [Registry.atoms_eq, Registry.layoutOf, writeAtoms, writeAtom, ht]
    rfl
  have hplaceholders : rowToCome.placeholders =
      [⟨some "f"⟩, ⟨some "x"⟩, ⟨some "g"⟩, ⟨some "y"⟩] := by
    simp [rowToCome, Expr.placeholders_operation]
  exact ⟨_, htemplate, rfl, hplaceholders,
    slots_perm_placeholders c (.inl rfl) rowToCome _ htemplate⟩

end Compiler
end SqlForms
