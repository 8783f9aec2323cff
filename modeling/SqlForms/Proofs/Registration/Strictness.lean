import SqlForms.Proofs.Filling
import SqlForms.Proofs.Registration.Locality

/-! # A strict registry refines the lenient one

    Without function calls a tree is written as with them, up to the first
    operation that is not registered: there the strict registry stops.

    * The atoms of a tree under the strict registry are those under the
      lenient one, or they agree up to an atom that refuses an unknown
      operator (`Registry.strict_atoms`).  The step is a layout, and a tree
      follows by induction along its layouts.
    * Under the lenient registry no atom refuses an operator as unknown
      (`Registry.unknown_not_mem_atoms`): every fault that a form can find is
      one of its operands, and a constant without a literal is another kind
      of error. -/

namespace SqlForms

namespace Registry

variable {r : Registry}

/-- Whether atoms are those of a second list, or part from it at an unknown operator with a tag of
    the given kind. -/
def Cut (P : String → Prop) (as bs : List Atom) : Prop :=
  as = bs ∨ ∃ before tag after rest, P tag ∧
    as = before ++ .refuse (.unknownOperator tag) :: after ∧ bs = before ++ rest

namespace Cut

variable {P : String → Prop}

/-- A cut at fewer tags is a cut at more. -/
theorem mono {Q : String → Prop} (hPQ : ∀ tag, P tag → Q tag) {as bs : List Atom}
    (h : Cut P as bs) : Cut Q as bs := by
  rcases h with rfl | ⟨before, tag, after, rest, ht, has, hbs⟩
  · exact .inl rfl
  · exact .inr ⟨before, tag, after, rest, hPQ tag ht, has, hbs⟩

/-- What comes first decides, unless it is the same. -/
theorem append {as bs as' bs' : List Atom} (h : Cut P as bs) (h' : Cut P as' bs') :
    Cut P (as ++ as') (bs ++ bs') := by
  rcases h with rfl | ⟨before, tag, after, rest, ht, rfl, rfl⟩
  · rcases h' with rfl | ⟨before, tag, after, rest, ht, rfl, rfl⟩
    · exact .inl rfl
    · exact .inr ⟨as ++ before, tag, after, rest, ht, by simp, by simp⟩
  · exact .inr ⟨before, tag, after ++ as', rest ++ bs', ht, by simp, by simp⟩

end Cut

/-- The tags that are not registered and that operations of a tree carry. -/
def UnknownIn (r : Registry) (e : Expr) (tag : String) : Prop :=
  r.get? tag = none ∧ tag ∈ e.tags

/-- A layout is cut where the first of its trees is. -/
theorem cut_atomsOf {P : String → Prop} {l : Layout}
    (h : ∀ x, .part x ∈ l → Cut P (r.strict.atoms x) (r.atoms x)) :
    Cut P (r.strict.atomsOf l) (r.atomsOf l) := by
  induction l with
  | nil => exact .inl rfl
  | cons piece l ih =>
      have ih := ih fun x hx => h x (List.mem_cons_of_mem _ hx)
      cases piece with
      | atom a =>
          show Cut P ([a] ++ r.strict.atomsOf l) ([a] ++ r.atomsOf l)
          exact Cut.append (.inl rfl) ih
      | part x => exact (h x List.mem_cons_self).append ih

/-- A tree is laid out alike under both registries, unless it is an operation that is not
    registered. -/
theorem Declared.layoutOf_strict (hr : r.Declared) (e : Expr) :
    r.strict.layoutOf e = r.layoutOf e ∨
      ∃ tag, r.UnknownIn e tag ∧ r.strict.layoutOf e = .refuse (.unknownOperator tag) := by
  cases e with
  | operation tag es =>
      rw [layoutOf, layoutOf, layout_eq hr.strict.next?_eq_none, layout_eq hr.next?_eq_none,
        get?_strict]
      cases hg : r.get? tag with
      | none => exact .inr ⟨tag, ⟨hg, by rw [Expr.tags]; exact List.mem_cons_self⟩, rfl⟩
      | some o => exact .inl rfl
  | _ => exact .inl rfl

/-- Under the strict registry a tree has the atoms it has under the lenient one, or these up to an
    operator that is not registered. -/
theorem Declared.strict_atoms (hr : r.Declared) (e : Expr) :
    Cut (r.UnknownIn e) (r.strict.atoms e) (r.atoms e) := by
  induction e using r.induction with
  | step e ih =>
      rw [atoms_eq, atoms_eq]
      rcases hr.layoutOf_strict e with hl | ⟨tag, ht, hl⟩
      · rw [hl]
        refine cut_atomsOf fun x hx => (ih x hx).mono fun tag ht => ?_
        exact ⟨ht.1, Expr.tags_subset_of_part_mem hx ht.2⟩
      · rw [hl]
        exact .inr ⟨[], tag, [], _, ht, rfl, rfl⟩

/-- Where an operation that is not registered is a call, no operator is refused as unknown. -/
theorem Declared.unknown_not_mem_atoms (hr : r.Declared) (hf : r.fallback) (t : String)
    (e : Expr) : .refuse (.unknownOperator t) ∉ r.atoms e := by
  induction e using r.induction with
  | step e ih =>
      rw [atoms_eq, mem_atomsOf]
      rintro (h | ⟨x, hx, ha⟩)
      · rcases hr.refuse_mem_layoutOf h with h | ⟨tag, es, -, -, hstrict, -⟩
        · cases h
        · rw [hf] at hstrict
          cases hstrict
      · exact ih x hx ha

end Registry

namespace Compiler

variable {c : Compiler}

/-- The compiler without function calls. -/
def strict (c : Compiler) : Compiler :=
  { c with registry := c.registry.strict }

/-- An atom that cannot be written as an unknown operator refuses one. -/
theorem eq_refuse_of_writeAtom {out : Fragments} {a : Atom} {t : String}
    (h : c.writeAtom out a = .error (.unknownOperator t)) : a = .refuse (.unknownOperator t) := by
  cases a with
  | literal v =>
      have hv := map_eq_error.mp (map_eq_error.mp h)
      have := Value.isSerialization_of_literal _ v hv
      cases this
  | slot p =>
      rw [writeAtom] at h
      cases hm : c.mode with
      | static => rw [hm] at h; cases h
      | deferred => rw [hm] at h; cases h
  | refuse x => cases h; rfl
  | _ => cases h

/-- A run that ends with an unknown operator has met an atom that refuses one. -/
theorem refuse_mem_of_writeAtoms {out : Fragments} {as : List Atom} {t : String}
    (h : c.writeAtoms out as = .error (.unknownOperator t)) :
    .refuse (.unknownOperator t) ∈ as := by
  induction as generalizing out with
  | nil => cases h
  | cons a as ih =>
      rw [writeAtoms, List.foldlM_cons] at h
      rcases bind_eq_error.mp h with h | ⟨out', -, h⟩
      · rw [eq_refuse_of_writeAtom h]
        exact List.mem_cons_self
      · exact List.mem_cons_of_mem _ (ih h)

/-- A run over cut atoms ends where they are cut, unless it ended before. -/
theorem writeAtoms_of_cut {P : String → Prop} {as bs : List Atom} (h : Registry.Cut P as bs)
    (out : Fragments) :
    c.writeAtoms out as = c.writeAtoms out bs ∨
      ∃ tag, P tag ∧ c.writeAtoms out as = .error (.unknownOperator tag) := by
  rcases h with rfl | ⟨before, tag, after, rest, ht, rfl, rfl⟩
  · exact .inl rfl
  · rw [writeAtoms_append, writeAtoms_append]
    cases c.writeAtoms out before with
    | error x => exact .inl rfl
    | ok f => exact .inr ⟨tag, ht, rfl⟩

/-- **A strict registry refines the lenient one.**  What is written without function calls is
    written with them; an operator that is unknown without them is not registered and is one of
    the tree; every other error without them is the error with them; and with them no operator is
    unknown. -/
theorem write_strict_refines (c : Compiler) (hr : c.registry.Declared)
    (hf : c.registry.fallback = true) (e : Expr) :
    (∀ f, c.strict.write e = .ok f → c.write e = .ok f) ∧
      (∀ t, c.strict.write e = .error (.unknownOperator t) →
        c.registry.get? t = none ∧ t ∈ e.tags) ∧
      (∀ x, (∀ t, x ≠ .unknownOperator t) → c.strict.write e = .error x →
        c.write e = .error x) ∧
      ∀ t, c.write e ≠ .error (.unknownOperator t) := by
  have hlenient : ∀ t, c.write e ≠ .error (.unknownOperator t) := fun t h =>
    hr.unknown_not_mem_atoms hf t e (refuse_mem_of_writeAtoms h)
  have hcut : c.strict.write e = c.write e ∨
      ∃ tag, c.registry.UnknownIn e tag ∧ c.strict.write e = .error (.unknownOperator tag) :=
    writeAtoms_of_cut (hr.strict_atoms e) .empty
  rcases hcut with heq | ⟨tag, htag, hstop⟩
  · rw [heq]
    exact ⟨fun f h => h, fun t h => absurd h (hlenient t), fun x _ h => h, hlenient⟩
  · rw [hstop]
    refine ⟨fun f h => ?_, fun t h => ?_, fun x hx h => ?_, hlenient⟩
    · cases h
    · cases h
      exact htag
    · cases h
      exact absurd rfl (hx tag)

/-- A column of a given length under a function that is not registered; neither is its type, which
    is only named. -/
def shortened : Expr :=
  .operation "cast"
    [.operation "trim" [.identifier "name"], .operation "varchar" [.literal (.int 10)]]

/-- With one more operator registered, the function is unknown without calls, and the type is not
    looked up. -/
theorem write_strict_refines_shortened :
    let c : Compiler := { registry := Registry.builtin.insert "regexp" (.twoOrMore "~") }
    c.registry.Declared ∧ c.registry.fallback = true ∧
      c.strict.write shortened = .error (.unknownOperator "trim") ∧
      c.registry.get? "trim" = none ∧ "trim" ∈ shortened.tags ∧
      c.write shortened ≠ .error (.unknownOperator "trim") := by
  intro c
  have hr : c.registry.Declared := .insert .builtin rfl
  have hcast : c.registry.get? "cast" =
      some (.custom ⟨Predicate.cast "cast", Predicate.cast_within _⟩) := by
    rw [Registry.get?_insert, if_neg (by decide), Registry.get?_builtin]
    rfl
  have htrim : c.registry.get? "trim" = none := by
    rw [Registry.get?_insert, if_neg (by decide), Registry.get?_builtin]
    rfl
  have hlayout : c.registry.strict.layoutOf (.operation "trim" [.identifier "name"]) =
      .refuse (.unknownOperator "trim") := by
    rw [Registry.layoutOf, Registry.layout_eq hr.strict.next?_eq_none, Registry.get?_strict, htrim]
    rfl
  have hstop : c.strict.write shortened = .error (.unknownOperator "trim") := by
    have hatoms : c.registry.strict.atoms shortened =
        [.refuse (.unknownOperator "trim"), .text "::", .text "VARCHAR(10)"] := by
      rw [Registry.atoms_eq, shortened, Registry.layoutOf,
        Registry.layout_eq hr.strict.next?_eq_none, Registry.get?_strict, hcast]
      show c.registry.strict.atoms _ ++ _ = _
      rw [Registry.atoms_eq, hlayout]
      rfl
    show c.strict.writeAtoms .empty (c.registry.strict.atoms shortened) = _
    rw [hatoms]
    rfl
  obtain ⟨-, hunknown, -, hknown⟩ := write_strict_refines c hr rfl shortened
  exact ⟨hr, rfl, hstop, (hunknown _ hstop).1, (hunknown _ hstop).2, hknown _⟩

end Compiler
end SqlForms
