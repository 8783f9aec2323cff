import SqlForms.Proofs.Substitution.Forms
import SqlForms.Proofs.Writing

/-! # Filling a template and writing the filled tree

    A statement with values can be made in two ways: leave slots and fill
    them in, or put the values into the tree and write it.  Both give the
    same text, or fail on the same value.

    * `Registry.atoms_subst`: in a tree without faults, putting trees in the
      place of placeholders puts their atoms in the place of the slots;
    * `Compiler.static_flatMap_substAtom`: writing trees in the place of slots
      writes them into the slots that are left;
    * `Compiler.static_substAtom`: where these trees are constants, this is
      filling the slots. -/

namespace SqlForms

/-! ## Atoms in the place of slots -/

namespace Registry

variable {r : Registry} {f : Placeholder → Expr}

/-- The atoms of a tree in the place of a slot; any other atom stays. -/
def substAtom (r : Registry) (f : Placeholder → Expr) : Atom → List Atom
  | .slot p => r.atoms (f p)
  | a => [a]

/-- A constant writes itself. -/
theorem atoms_literal (r : Registry) (v : Value) : r.atoms (.literal v) = [.literal v] :=
  r.atoms_eq (.literal v)

/-- The tested values of a tree in a layout are among those of the tree it belongs to. -/
theorem flags_subset_of_part_mem {e x : Expr} (h : .part x ∈ r.layoutOf e) :
    x.flags ⊆ e.flags := by
  obtain ⟨es, rfl | ⟨tag, rfl⟩, hx⟩ := reach_of_part_mem h
  · exact Expr.flags_subset_of_reach hx
  · exact List.Subset.trans (Expr.flags_subset_of_reach hx) (List.subset_append_right _ _)

/-- Where no fault is found, a tree with trees in the place of placeholders has the layout of the
    tree, with the same trees in the place of the same placeholders. -/
theorem Declared.layoutOf_subst (hr : r.Declared) (hf : ∀ p, (f p).isInert) {e : Expr}
    (he : ∀ p, e ≠ .placeholder p) (hc : (r.layoutOf e).Clean)
    (hv : ∀ p, .placeholder p ∈ e.flags → (f p).isTruthy) :
    r.layoutOf (e.subst f) = (r.layoutOf e).subst f := by
  cases e with
  | placeholder p => exact absurd rfl (he p)
  | list items =>
      rw [Expr.subst, Expr.substAll_eq_map, layoutOf, layoutOf, Layout.subst_parenthesized]
  | operation tag es =>
      rw [layoutOf] at hc
      rw [Expr.subst, Expr.substAll_eq_map, layoutOf, layoutOf]
      -- A tag that is not registered, a declarative operator, or a built-in form.
      rcases hr.layout_cases tag with hl | ⟨o, hl, ho | hm⟩
      · rw [hl] at hc
        rw [hl, hl]
        unfold unregistered at hc ⊢
        split at hc
        next hb => simp [hb, call]
        next => simp at hc
      · rw [hl] at hc
        rw [hl, hl]
        exact Operator.layout_subst tag ho hc
      · rw [hl] at hc
        rw [hl, hl]
        refine (forms_subst hf).of_mem hm es hc fun htag p hp => hv p ?_
        rw [Expr.flags, if_pos htag]
        exact List.mem_append_left _ hp
  | _ => rfl

/-- In a tree without faults, trees in the place of placeholders put their atoms in the place of
    the slots. -/
theorem Declared.atoms_subst (hr : r.Declared) (hf : ∀ p, (f p).isInert) {e : Expr}
    (hc : ∀ x, .refuse x ∉ r.atoms e) (hv : ∀ p, .placeholder p ∈ e.flags → (f p).isTruthy) :
    r.atoms (e.subst f) = (r.atoms e).flatMap (r.substAtom f) := by
  induction e using r.induction with
  | step e ih =>
      by_cases hp : ∃ p, e = .placeholder p
      · obtain ⟨p, rfl⟩ := hp
        rw [r.atoms_eq (.placeholder p), Expr.subst]
        exact (List.append_nil _).symm
      · have hclean : (r.layoutOf e).Clean := fun x hx =>
          hc x (by rw [atoms_eq, mem_atomsOf]; exact .inl hx)
        rw [r.atoms_eq (e.subst f), r.atoms_eq e,
          hr.layoutOf_subst hf (fun p h => hp ⟨p, h⟩) hclean hv, atomsOf, atomsOf, Layout.subst,
          List.flatMap_map, List.flatMap_assoc, List.flatMap_def, List.flatMap_def]
        refine congrArg List.flatten (List.map_congr_left fun q hq => ?_)
        cases q with
        | part x =>
            -- The operand is smaller, and what holds of the tree holds of it.
            refine ih x hq (fun y hy => hc y ?_) fun p h => hv p (flags_subset_of_part_mem hq h)
            rw [atoms_eq, mem_atomsOf]
            exact .inr ⟨x, hq, hy⟩
        | atom a =>
            -- Only a placeholder has a slot of its own.
            have ha : r.substAtom f a = [a] := by
              rcases hr.atom_mem_layoutOf hq with h | ⟨n, rfl⟩ | ⟨v, rfl⟩ | ⟨p, h, -⟩
              · cases a with
                | slot p => cases h
                | _ => rfl
              · rfl
              · rfl
              · exact absurd ⟨p, h⟩ hp
            show [a] = [a].flatMap (r.substAtom f)
            rw [List.flatMap_singleton, ha]

end Registry

/-! ## Constants in the place of slots -/

/-- Whether an error is that of a constant without a literal. -/
def Error.isSerialization : Error → Bool
  | .notFinite _ => true
  | .notDecimal _ => true
  | .objectArgument _ => true
  | _ => false

namespace Value

mutual

/-- A value only fails for a constant without a literal. -/
theorem isSerialization_of_literal (d : Dialect) (v : Value) {x : Error}
    (h : v.literal d = .error x) : x.isSerialization := by
  cases v with
  | float y =>
      rw [literal] at h
      split at h
      · cases h
      · cases h; rfl
  | numeric n =>
      rw [literal] at h
      split at h
      · cases h
      · cases h; rfl
  | array items =>
      cases items with
      | nil => rw [literal] at h; cases h
      | cons item items =>
          rw [literal] at h
          rcases bind_eq_error.mp h with h | ⟨l, -, h⟩
          · exact isSerialization_of_literal d item h
          · rcases bind_eq_error.mp h with h | ⟨ls, -, h⟩
            · exact isSerialization_of_literals d items h
            · cases h
  | _ => rw [literal] at h; cases h

/-- Values fail for the reason one of them has no literal. -/
theorem isSerialization_of_literals (d : Dialect) (vs : List Value) {x : Error}
    (h : literals d vs = .error x) : x.isSerialization := by
  cases vs with
  | nil => rw [literals] at h; cases h
  | cons v vs =>
      rw [literals] at h
      rcases bind_eq_error.mp h with h | ⟨l, -, h⟩
      · exact isSerialization_of_literal d v h
      · rcases bind_eq_error.mp h with h | ⟨ls, -, h⟩
        · exact isSerialization_of_literals d vs h
        · cases h

end

end Value

/-- Filling slots only fails for a constant without a literal. -/
theorem Mark.isSerialization_of_fill {d : Dialect} {ms : List Mark} {vs : List Value} {x : Error}
    (h : fill d ms vs = .error x) : x.isSerialization := by
  fun_induction fill d ms vs with
  | case1 => cases h
  | case2 c ms vs ih => exact ih (map_eq_error.mp h)
  | case3 p ms v vs ih =>
      rcases bind_eq_error.mp h with h | ⟨first, -, h⟩
      · exact v.isSerialization_of_literal d (map_eq_error.mp h)
      · rcases bind_eq_error.mp h with h | ⟨rest, -, h⟩
        · exact ih h
        · cases h
  | case4 p ms ih => exact ih h

namespace Compiler

variable {c : Compiler}

/-- A row of marks with what trees write in the place of its slots. -/
def refill (c : Compiler) (f : Placeholder → Expr) : List Mark → Except Error (List Mark)
  | [] => .ok []
  | .char x :: ms => (c.refill f ms).map (.char x :: ·)
  | .slot p :: ms => do
      let first ← c.marks (c.registry.atoms (f p))
      let rest ← c.refill f ms
      return first ++ rest

/-- Text before a row of marks stays in front of what the row becomes. -/
theorem refill_ofChars_append (f : Placeholder → Expr) (cs : List Char) (ms : List Mark) :
    c.refill f (Mark.ofChars cs ++ ms) = (c.refill f ms).map (Mark.ofChars cs ++ ·) := by
  induction cs with
  | nil => cases h : c.refill f ms <;> simp [h]
  | cons x cs ih =>
      rw [Mark.ofChars_cons, List.cons_append, refill, ih]
      cases c.refill f ms <;> rfl

/-- Trees that write the same in every slot are the same in the slots. -/
theorem refill_congr {f g : Placeholder → Expr} {ms : List Mark}
    (h : ∀ p ∈ Mark.slots ms,
      c.marks (c.registry.atoms (f p)) = c.marks (c.registry.atoms (g p))) :
    c.refill f ms = c.refill g ms := by
  induction ms with
  | nil => rfl
  | cons m ms ih =>
      cases m with
      | char x => rw [refill, refill, ih h]
      | slot p =>
          rw [Mark.slots_slot] at h
          have ih := ih fun q hq => h q (List.mem_cons_of_mem _ hq)
          rw [refill, refill, h p List.mem_cons_self, ih]

/-- Writing atoms with trees in the place of slots writes these trees into the slots that the
    atoms leave. -/
theorem static_flatMap_substAtom (f : Placeholder → Expr) {as : List Atom} {ms : List Mark}
    (hch : ∀ f, .chosen f ∉ as) (h : c.deferred.marks as = .ok ms) :
    c.static.marks (as.flatMap (c.registry.substAtom f)) = c.static.refill f ms := by
  induction as generalizing ms with
  | nil => cases h; rfl
  | cons a as ih =>
      obtain ⟨x, hx, h⟩ := bind_eq_ok.mp h
      obtain ⟨y, hy, h⟩ := bind_eq_ok.mp h
      cases h
      have ih := ih (fun f hf => hch f (List.mem_cons_of_mem _ hf)) hy
      rw [List.flatMap_cons, marks_append, ih]
      -- The tree stands where the slot was; every other atom is written as before.
      by_cases hs : ∃ p, a = .slot p
      · obtain ⟨p, rfl⟩ := hs
        cases hx
        rfl
      · have hs : ∀ p, a ≠ .slot p := fun p hp => hs ⟨p, hp⟩
        have hc : ∀ f, a ≠ .chosen f := fun f hf => hch f (hf ▸ List.mem_cons_self)
        have ha : c.registry.substAtom f a = [a] := by
          cases a with
          | slot p => exact absurd rfl (hs p)
          | _ => rfl
        have hx' : c.static.atomMarks a = .ok x := by
          rw [← hx]
          cases a with
          | slot p => exact absurd rfl (hs p)
          | chosen f => exact absurd rfl (hc f)
          | _ => rfl
        obtain ⟨cs, rfl⟩ := atomMarks_eq_ofChars hs hx
        rw [ha, marks, hx', refill_ofChars_append]
        cases c.static.refill f y <;> simp [marks]

/-- Constants are written into slots as values are filled in. -/
theorem refill_literal (s : Placeholder → Value) (ms : List Mark) :
    c.refill (fun p => .literal (s p)) ms =
      (Mark.fill c.config.strings ms ((Mark.slots ms).map s)).map Mark.ofChars := by
  induction ms with
  | nil => rfl
  | cons m ms ih =>
      cases m with
      | char x =>
          rw [refill, ih]
          show _ = ((Mark.fill c.config.strings ms ((Mark.slots ms).map s)).map (x :: ·)).map _
          cases Mark.fill c.config.strings ms ((Mark.slots ms).map s) <;> rfl
      | slot p =>
          rw [refill, ih, Registry.atoms_literal, marks, atomMarks, Mark.slots_slot, List.map_cons,
            Mark.fill]
          cases (s p).sql c.config.strings with
          | error x => rfl
          | ok first =>
              cases Mark.fill c.config.strings ms ((Mark.slots ms).map s) <;> simp [marks]

/-- Writing constants in the place of slots is filling the slots. -/
theorem static_substAtom (s : Placeholder → Value) {as : List Atom} {ms : List Mark}
    (hch : ∀ f, .chosen f ∉ as) (h : c.deferred.marks as = .ok ms) :
    c.static.marks (as.flatMap (c.registry.substAtom fun p => .literal (s p))) =
      (Mark.fill c.config.strings ms ((Mark.slots ms).map s)).map Mark.ofChars := by
  rw [static_flatMap_substAtom _ hch h, refill_literal]

/-- **Filling a template is writing the filled tree.**  Whatever values the placeholders have, the
    template of a tree filled with them and the tree with them in place have the same text, or
    fail on the same constant.  A placeholder whose value is only tested has to stand for a value
    that counts as true, as the placeholder does. -/
theorem fill_template_eq_statement_subst {c : Compiler} (hr : c.registry.Declared) {e : Expr}
    {t : Template} (ht : c.template e = .ok t) (s : Placeholder → Value)
    (hs : ∀ p, .placeholder p ∈ e.flags → s p ≠ .null ∧ s p ≠ .bool false) :
    t.fill (t.slots.map s) = c.statement (e.subst fun p => .literal (s p)) ∧
      ∀ x, t.fill (t.slots.map s) = .error x → x.isSerialization := by
  have hms := marks_of_template ht
  have hflags : ∀ p, .placeholder p ∈ e.flags → (Expr.literal (s p)).isTruthy := by
    intro p hp
    obtain ⟨hnull, hfalse⟩ := hs p hp
    cases hv : s p with
    | null => exact absurd hv hnull
    | bool b =>
        cases b with
        | true => rfl
        | false => exact absurd hv hfalse
    | _ => rfl
  -- Both sides are read off the marks of the template: filling them, and writing the constants
  -- where the slots are.
  have hatoms := hr.atoms_subst (fun _ => rfl) (refuse_not_mem_of_marks hms) hflags
  have hslots : t.slots = Mark.slots t.fragments.marks := t.fragments.slots_eq
  have hfill : t.fill (t.slots.map s) =
      (Mark.fill c.config.strings t.fragments.marks
        ((Mark.slots t.fragments.marks).map s)).map String.ofList := by
    rw [t.fill_eq (List.length_map s), hslots, config_of_template ht]
  have hstatic := static_substAtom s (fun f => Registry.chosen_not_mem_atoms hr f e) hms
  rw [← hatoms] at hstatic
  rw [hfill]
  cases hm : Mark.fill c.config.strings t.fragments.marks
      ((Mark.slots t.fragments.marks).map s) with
  | error x =>
      refine ⟨(statement_eq_error.mpr ?_).symm, fun y hy => ?_⟩
      · rw [hstatic, hm]
        rfl
      · cases hy
        exact Mark.isSerialization_of_fill hm
  | ok cs =>
      refine ⟨(statement_eq_ok.mpr ?_).symm, fun y hy => by cases hy⟩
      rw [hstatic, hm, String.toList_ofList]
      rfl

/-- A table with one column, unique if `?u` holds and with the default `?d`. -/
def flaggedTable : Expr :=
  .operation "create-table"
    [.identifier "t",
     .list
      [.list
        [.identifier "id", .keyword "type", .identifier "int", .keyword "unique",
         .placeholder ⟨some "u"⟩, .keyword "default", .placeholder ⟨some "d"⟩]]]

/-- With a true `?u` that the template does not even ask for, and a text for `?d`. -/
theorem fill_template_eq_statement_subst_flaggedTable :
    let c : Compiler := { registry := .builtin }
    let s : Placeholder → Value := fun p => if p.name = some "u" then .bool true else .text "it's"
    c.registry.Declared ∧
      c.template flaggedTable =
        .ok ⟨⟨[.text "CREATE TABLE t (id INT NOT NULL UNIQUE DEFAULT ", .slot ⟨some "d"⟩,
          .text ")"]⟩, {}⟩ ∧
      (∀ p, .placeholder p ∈ flaggedTable.flags → s p ≠ .null ∧ s p ≠ .bool false) ∧
      c.statement (flaggedTable.subst fun p => .literal (s p)) =
        .ok "CREATE TABLE t (id INT NOT NULL UNIQUE DEFAULT E'it''s')" := by
  intro c s
  have hget : Registry.builtin.get? "create-table" =
      some (.custom ⟨Table.createTable, Table.createTable_within⟩) := by
    rw [Registry.get?_builtin]
    rfl
  have hlayout : Registry.builtin.layoutOf flaggedTable =
      [.text "CREATE TABLE ", .part (.identifier "t"), .text " (", .part (.identifier "id"),
       .text " ", .text "INT", .text " NOT NULL", .text " UNIQUE", .text " DEFAULT ",
       .part (.placeholder ⟨some "d"⟩), .text ")"] := by
    rw [flaggedTable, Registry.layoutOf,
      Registry.layout_eq Registry.Declared.builtin.next?_eq_none, hget]
    rfl
  have htemplate : c.template flaggedTable =
      .ok ⟨⟨[.text "CREATE TABLE t (id INT NOT NULL UNIQUE DEFAULT ", .slot ⟨some "d"⟩,
        .text ")"]⟩, {}⟩ := by
    have ht : Name.write false "t" = "t" := by decide
    have hid : Name.write false "id" = "id" := by decide
    simp only [template, write, writeInto, c, Registry.atoms_eq _ flaggedTable, hlayout]
    simp [Registry.atoms_eq, Registry.layoutOf, writeAtoms, writeAtom, ht, hid]
    rfl
  have hflags : ∀ p, .placeholder p ∈ flaggedTable.flags → s p ≠ .null ∧ s p ≠ .bool false := by
    have : flaggedTable.flags = [.placeholder ⟨some "u"⟩] := rfl
    intro p hp
    rw [this, List.mem_singleton] at hp
    cases hp
    simp [s]
  refine ⟨.builtin, htemplate, hflags, ?_⟩
  refine (fill_template_eq_statement_subst (c := c) .builtin htemplate s hflags).1.symm.trans ?_
  rfl

end Compiler
end SqlForms
