import SqlForms.Proofs.Registered
import SqlForms.Proofs.Writing

/-! # With values known and with values to come

    A tree is written the same way in both modes up to its first placeholder:
    there the one mode leaves a slot and the other one stops.  So a tree
    without slots has one text, and a tree with slots has none, for the want
    of its first slot.

    The step is an atom (`atomMarks_static`); from it a run over the atoms
    follows by induction, once for runs that go through
    (`static_of_deferred_ok`) and once for runs that fail
    (`static_of_deferred_error`). -/

namespace SqlForms.Compiler

variable {c : Compiler} {as : List Atom}

/-- An atom that is neither a slot nor spelled by mode is written the same way in both modes. -/
theorem atomMarks_static {a : Atom} (hs : ∀ p, a ≠ .slot p) (hc : ∀ f, a ≠ .chosen f) :
    c.static.atomMarks a = c.deferred.atomMarks a := by
  cases a with
  | slot p => exact absurd rfl (hs p)
  | chosen f => exact absurd rfl (hc f)
  | _ => rfl

/-- A run that leaves slots goes through without them up to the first slot. -/
theorem static_of_deferred_ok {ms : List Mark} (hc : ∀ f, .chosen f ∉ as)
    (h : c.deferred.marks as = .ok ms) :
    c.static.marks as =
      match Mark.slots ms with
      | [] => .ok ms
      | p :: _ => .error (.unbound p) := by
  induction as generalizing ms with
  | nil => cases h; rfl
  | cons a as ih =>
      obtain ⟨x, hx, h⟩ := bind_eq_ok.mp h
      obtain ⟨y, hy, h⟩ := bind_eq_ok.mp h
      cases h
      have hrest := ih (fun f hf => hc f (List.mem_cons_of_mem _ hf)) hy
      by_cases hs : ∃ p, a = .slot p
      · obtain ⟨p, rfl⟩ := hs
        cases hx
        rfl
      · have ha : c.static.atomMarks a = .ok x := by
          rw [atomMarks_static (fun p hp => hs ⟨p, hp⟩), hx]
          intro f hf
          exact hc f (hf ▸ List.mem_cons_self)
        have hone : c.static.marks [a] = .ok x := by
          rw [marks, ha]
          simp [marks]
        have hslots := slots_of_static hone
        rw [marks, ha, hrest, Mark.slots_append, hslots, List.nil_append]
        cases Mark.slots y <;> rfl

/-- A run that leaves slots and fails, fails without them in the same way or at a slot before. -/
theorem static_of_deferred_error {x : Error} (hc : ∀ f, .chosen f ∉ as)
    (h : c.deferred.marks as = .error x) :
    c.static.marks as = .error x ∨ ∃ p, c.static.marks as = .error (.unbound p) := by
  induction as with
  | nil => cases h
  | cons a as ih =>
      by_cases hs : ∃ p, a = .slot p
      · obtain ⟨p, rfl⟩ := hs
        exact .inr ⟨p, rfl⟩
      · have ha : c.static.atomMarks a = c.deferred.atomMarks a := by
          refine atomMarks_static (fun p hp => hs ⟨p, hp⟩) fun f hf => ?_
          exact hc f (hf ▸ List.mem_cons_self)
        rw [marks, ha]
        rcases bind_eq_error.mp h with hx | ⟨ms, hx, h⟩
        · rw [hx]
          exact .inl rfl
        · rw [hx]
          rcases bind_eq_error.mp h with hr | ⟨rest, -, h⟩
          · rcases ih (fun f hf => hc f (List.mem_cons_of_mem _ hf)) hr with h' | ⟨p, h'⟩
            · exact .inl (by rw [h']; rfl)
            · exact .inr ⟨p, by rw [h']; rfl⟩
          · cases h

/-- A compiled tree is finished text exactly when its template has no slot. -/
theorem compile_eq_sql {e : Expr} {s : String} :
    c.compile e = .ok (.sql s) ↔
      c.deferred.marks (c.registry.atoms e) = .ok (Mark.ofChars s.toList) := by
  rw [compile, ← c.template_eq e]
  cases ht : c.template e with
  | error x => simp
  | ok t =>
      show Except.ok (Compiled.ofTemplate t) = _ ↔ Except.ok t.fragments.marks = _
      rw [Except.ok.injEq, Except.ok.injEq, Compiled.ofTemplate, t.fragments.sql?_eq]
      -- A template is finished text when its marks are characters only.
      cases hm : Mark.chars? t.fragments.marks with
      | none =>
          constructor
          · intro h; cases h
          · intro h
            rw [Mark.chars?_eq_some.mpr h] at hm
            cases hm
      | some cs =>
          have hcs := Mark.chars?_eq_some.mp hm
          constructor
          · intro h
            have hs : String.ofList cs = s := Compiled.sql.inj h
            rw [hcs, ← hs, String.toList_ofList]
          · intro h
            show Compiled.sql (String.ofList cs) = .sql s
            rw [Mark.ofChars_injective (hcs.symm.trans h), String.ofList_toList]

/-- A compiled tree that is a template is the template of the tree, and has a slot. -/
theorem template_of_compile {e : Expr} {t : Template} (h : c.compile e = .ok (.template t)) :
    c.template e = .ok t ∧ ∃ p ps, t.slots = p :: ps := by
  obtain ⟨t', ht, h⟩ := bind_eq_ok.mp h
  have h : Compiled.ofTemplate t' = .template t := Except.ok.inj h
  rw [Compiled.ofTemplate] at h
  cases hq : t'.fragments.sql? with
  | some s => rw [hq] at h; cases h
  | none =>
      rw [hq] at h
      cases h
      refine ⟨ht, ?_⟩
      rw [t.fragments.sql?_eq, Option.map_eq_none_iff] at hq
      have hne := Mark.chars?_eq_none.mp hq
      rw [← Fragments.slots_eq] at hne
      exact List.exists_cons_of_ne_nil hne

/-- **The two modes simulate each other.**  A tree has a text exactly when it compiles to that
    text; with every value known no slot is ever left; a tree that compiles to a template has no
    text for the want of the first slot of the template; and a tree that does not compile has no
    text, for the same reason or for the want of some placeholder. -/
theorem statement_simulates_compile (c : Compiler) (hr : c.registry.Declared) (e : Expr) :
    (∀ s, c.statement e = .ok s ↔ c.compile e = .ok (.sql s)) ∧
      (∀ f, { c with mode := .static }.write e = .ok f → f.slots = [] ∧ f.sql?.isSome) ∧
      (∀ t, c.compile e = .ok (.template t) →
        ∃ p, t.slots.head? = some p ∧ c.statement e = .error (.unbound p) ∧
          (Error.unbound p).message =
            "placeholder " ++ p.name.getD "?" ++ " cannot be bound in a static compilation") ∧
      (∀ x, c.compile e = .error x →
        c.statement e = .error x ∨ ∃ p, c.statement e = .error (.unbound p)) := by
  have hc : ∀ f, .chosen f ∉ c.registry.atoms e :=
    fun f => Registry.chosen_not_mem_atoms hr f e
  refine ⟨fun s => ?_, fun f hf => ?_, fun t ht => ?_, fun x hx => ?_⟩
  · rw [statement_eq_ok, compile_eq_sql]
    constructor
    · intro h
      -- A run with every value known fails at the first slot, so this one has met none.
      cases hd : c.deferred.marks (c.registry.atoms e) with
      | error x =>
          rcases static_of_deferred_error hc hd with h' | ⟨p, h'⟩
          · rw [h'] at h; cases h
          · rw [h'] at h; cases h
      | ok ms =>
          rw [static_of_deferred_ok hc hd] at h
          cases hs : Mark.slots ms with
          | nil => rw [hs] at h; exact h
          | cons p ps => rw [hs] at h; cases h
    · intro h
      rw [static_of_deferred_ok hc h, Mark.slots_ofChars]
  · obtain ⟨cs, hm, hs⟩ := sql?_of_static hf
    rw [f.slots_eq, hm, Mark.slots_ofChars, hs]
    exact ⟨rfl, rfl⟩
  · obtain ⟨ht, p, ps, hp⟩ := template_of_compile ht
    refine ⟨p, by rw [hp]; rfl, ?_, rfl⟩
    have hs : Mark.slots t.fragments.marks = p :: ps := by
      rw [← Fragments.slots_eq]
      exact hp
    rw [statement_eq_error, static_of_deferred_ok hc (marks_of_template ht), hs]
  · have hd : c.deferred.marks (c.registry.atoms e) = .error x := by
      rw [← c.template_eq e]
      cases ht : c.template e with
      | ok t => rw [compile, ht] at hx; cases hx
      | error y => rw [compile, ht] at hx; cases hx; rfl
    rcases static_of_deferred_error hc hd with h | ⟨p, h⟩
    · exact .inl (statement_eq_error.mpr h)
    · exact .inr ⟨p, statement_eq_error.mpr h⟩

/-- A condition on a name and a value to come. -/
theorem statement_simulates_compile_equation :
    let c : Compiler := { registry := .builtin }
    let e : Expr := .operation "=" [.identifier "id", .placeholder ⟨some "who"⟩]
    c.registry.Declared ∧
      c.compile e =
        .ok (.template ⟨⟨[.text "(id = ", .slot ⟨some "who"⟩, .text ")"]⟩, {}⟩) ∧
      c.statement e = .error (.unbound ⟨some "who"⟩) := by
  intro c e
  have hget : Registry.builtin.get? "=" = some (.twoOrMore "=") := by
    rw [Registry.get?_builtin]
    rfl
  have hlayout : Registry.builtin.layoutOf e =
      [.text "(", .part (.identifier "id"), .text " = ", .part (.placeholder ⟨some "who"⟩),
       .text ")"] := by
    rw [Registry.layoutOf, Registry.layout_eq Registry.Declared.builtin.next?_eq_none, hget]
    rfl
  have hcompile : c.compile e =
      .ok (.template ⟨⟨[.text "(id = ", .slot ⟨some "who"⟩, .text ")"]⟩, {}⟩) := by
    have hid : Name.write false "id" = "id" := by decide
    simp only [compile, template, write, writeInto, c, Registry.atoms_eq _ e, hlayout]
    simp [Registry.atoms_eq, Registry.layoutOf, writeAtoms, writeAtom, hid]
    rfl
  refine ⟨.builtin, hcompile, ?_⟩
  obtain ⟨p, hp, hs, -⟩ := (statement_simulates_compile c .builtin e).2.2.1 _ hcompile
  cases hp
  exact hs

end SqlForms.Compiler
