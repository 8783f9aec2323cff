import SqlForms.Proofs.Filling
import SqlForms.Proofs.Placeholders.Slots

/-! # Numbered parameters

    A driver takes its values for `$1`, `$2`, … apart from the statement.
    There are three ways to write such a statement: number the slots of a
    template, fill its slots with the parameters as they are, or name the
    parameters in the tree and write it with nothing left open.  All three
    give the same text, though a form may write its operands in another order
    than they stand in the tree.

    * `Mark.fill_parameters`: filling slots with parameters in order is
      numbering them;
    * `Name.write_parameter`: a parameter is a name that is written as it is,
      so a tree with names and one with constants write the same. -/

namespace SqlForms

/-! ## Parameters as values -/

/-- The parameter of the given number. -/
def parameter (n : Nat) : String :=
  "$" ++ toString n

/-- As many parameters as asked for, from `$n` on, as values that are written as they are. -/
def parameters (n count : Nat) : List Value :=
  (List.range' n count).map fun k => .raw (parameter k)

private theorem toList_parameter (n : Nat) : (parameter n).toList = '$' :: Nat.toDigits 10 n := by
  simp [parameter]

/-- Filling slots with parameters in order is numbering them. -/
theorem Mark.fill_parameters (d : Dialect) (n : Nat) (ms : List Mark) :
    fill d ms (parameters n (slots ms).length) = .ok (number n ms) := by
  induction ms generalizing n with
  | nil => rfl
  | cons m ms ih =>
      cases m with
      | char c =>
          show (fill d ms (parameters n (slots ms).length)).map (c :: ·) = _
          rw [ih]
          rfl
      | slot p =>
          have hcons : parameters n (slots (.slot p :: ms)).length =
              .raw (parameter n) :: parameters (n + 1) (slots ms).length := by
            rw [slots_slot, List.length_cons, parameters, List.range'_succ]
            rfl
          have hfirst : (Value.raw (parameter n)).sql d = .ok (parameter n) := rfl
          rw [hcons, fill, hfirst, ih]
          show Except.ok ((parameter n).toList ++ number (n + 1) ms) = _
          rw [toList_parameter]
          rfl

/-- Filling a template with the parameters is numbering its slots. -/
theorem Template.fill_parameters (t : Template) :
    t.fill (parameters 1 t.slotCount) = .ok t.numbered := by
  have hcount : t.slotCount = (Mark.slots t.fragments.marks).length :=
    congrArg List.length t.fragments.slots_eq
  have hlength : (parameters 1 t.slotCount).length = t.slotCount := by simp [parameters]
  rw [t.fill_eq hlength, hcount, Mark.fill_parameters, numbered, numberParts_eq]
  rfl

/-! ## Parameters as names -/

/-- A parameter is a name that is written as it is. -/
theorem Name.write_parameter (quote : Bool) (n : Nat) :
    write quote (parameter n) = parameter n := by
  have hdigits : ∀ c ∈ Nat.toDigits 10 n, decide ('0' ≤ c) && decide (c ≤ '9') := by
    intro c hc
    have := Char.isDigit_iff_toNat.mp (Nat.isDigit_of_mem_toDigits (by decide) (by decide) hc)
    rw [Bool.and_eq_true, decide_eq_true_iff, decide_eq_true_iff]
    exact this
  have hparameter : isParameter (parameter n).toList := by
    rw [toList_parameter]
    obtain ⟨c, cs, hcs⟩ := List.exists_cons_of_ne_nil (Nat.toDigits_ne_nil (b := 10) (n := n))
    rw [hcs] at hdigits ⊢
    exact List.all_eq_true.mpr hdigits
  rw [write, chars, if_pos (.inr hparameter), String.ofList_toList]

namespace Template

/-- The name in the place of a placeholder: the parameter of its slot, or some other name if it has
    none. -/
def parameterName (t : Template) (other : Placeholder → String) (p : Placeholder) : String :=
  if p ∈ t.slots then parameter (t.slots.idxOf p + 1) else other p

variable {t : Template} {other : Placeholder → String}

/-- Where no two slots are the same, each has its own number. -/
theorem parameterName_getElem? (h : t.slots.Nodup) {k : Nat} {p : Placeholder}
    (hk : t.slots[k]? = some p) : t.parameterName other p = parameter (k + 1) := by
  obtain ⟨hlt, rfl⟩ := List.getElem?_eq_some_iff.mp hk
  rw [parameterName, if_pos (List.getElem_mem hlt), h.idxOf_getElem k hlt]

/-- In the order of the slots, the names of their placeholders are the parameters. -/
theorem map_parameterName (h : t.slots.Nodup) :
    t.slots.map (fun p => .raw (t.parameterName other p)) = parameters 1 t.slotCount := by
  apply List.ext_getElem
  · simp [parameters, slotCount]
  · intro k hk hk'
    have hlt : k < t.slots.length := by simpa using hk
    simp [parameters, parameterName_getElem? h (List.getElem?_eq_getElem hlt), Nat.add_comm]

end Template

namespace Compiler

variable {c : Compiler}

/-- A name that is written as it is writes the same as the constant. -/
theorem marks_identifier {n : String} (h : Name.write c.config.quoteNames n = n) :
    c.marks (c.registry.atoms (.identifier n)) =
      c.marks (c.registry.atoms (.literal (.raw n))) := by
  have hatoms : c.registry.atoms (.identifier n) = [.name n] := c.registry.atoms_eq (.identifier n)
  have hname : c.marks [.name n] =
      .ok (Mark.ofChars (Name.write c.config.quoteNames n).toList ++ []) := rfl
  rw [hatoms, Registry.atoms_literal, hname, h]
  rfl

/-- The slots of a template are as distinct as the placeholders of its tree. -/
theorem nodup_slots (hr : c.registry = .builtin ∨ c.registry = Registry.builtin.strict) {e : Expr}
    {t : Template} (ht : c.template e = .ok t) (he : (e.placeholders.map (·.name)).Nodup) :
    t.slots.Nodup := by
  have hplaceholders : e.placeholders.Nodup :=
    (List.pairwise_map.mp he).imp fun hne heq => hne (congrArg _ heq)
  have hperm := slots_of_tree (c := c.deferred) (Registry.declared_of_builtin hr)
    (Registry.get?_eq_builtin hr) e (marks_of_template ht)
  rw [Template.slots, Fragments.slots_eq]
  exact hperm.nodup_iff.mpr hplaceholders

/-- A tree that names the parameters of its slots has the text of its template with numbered
    slots. -/
theorem statement_parameterName (hr : c.registry.Declared) {e : Expr} {t : Template}
    (ht : c.template e = .ok t) (hn : t.slots.Nodup) (other : Placeholder → String) :
    c.statement (e.subst fun p => .identifier (t.parameterName other p)) = .ok t.numbered := by
  have hms := marks_of_template ht
  have hslots : Mark.slots t.fragments.marks = t.slots := t.fragments.slots_eq.symm
  -- An identifier is neither a keyword nor a list, and counts as true.
  have hatoms := hr.atoms_subst (f := fun p => .identifier (t.parameterName other p))
    (fun _ => rfl) (refuse_not_mem_of_marks hms) fun _ _ => rfl
  have hsame : c.static.refill (fun p => .identifier (t.parameterName other p)) t.fragments.marks =
      c.static.refill (fun p => .literal (.raw (t.parameterName other p))) t.fragments.marks := by
    refine refill_congr fun p hp => marks_identifier ?_
    rw [hslots] at hp
    rw [Template.parameterName, if_pos hp, Name.write_parameter]
  rw [statement_eq_ok, hatoms,
    static_flatMap_substAtom _ (fun f => Registry.chosen_not_mem_atoms hr f e) hms, hsame,
    refill_literal, hslots, Template.map_parameterName hn, Template.slotCount, ← hslots,
    Mark.fill_parameters, Template.numbered, Template.numberParts_eq, String.toList_ofList]
  rfl

/-- **Numbered slots are named parameters.**  In a tree whose placeholders have names of their own,
    put the parameter `$k` in the place of the placeholder of the `k`-th slot, and any name in the
    place of a placeholder without a slot: the tree then has the text of its template with
    numbered slots.  Any template with numbered slots is also the template filled with the
    parameters in order, written as they are. -/
theorem numbered_eq_statement_of_parameters :
    (∀ (c : Compiler) (e : Expr) (t : Template) (other : Placeholder → String),
      c.registry = .builtin ∨ c.registry = Registry.builtin.strict →
      (e.placeholders.map (·.name)).Nodup → c.template e = .ok t →
        (∀ k p, t.slots[k]? = some p → t.parameterName other p = parameter (k + 1)) ∧
        (∀ p, p ∉ t.slots → t.parameterName other p = other p) ∧
        c.statement (e.subst fun p => .identifier (t.parameterName other p)) = .ok t.numbered) ∧
    ∀ t : Template, t.fill (parameters 1 t.slotCount) = .ok t.numbered := by
  refine ⟨fun c e t other hr he ht => ?_, Template.fill_parameters⟩
  have hn := nodup_slots hr ht he
  exact ⟨fun k p => Template.parameterName_getElem? hn, fun p hp => if_neg hp,
    statement_parameterName (Registry.declared_of_builtin hr) ht hn other⟩

/-- A query for one row of each kind, where the column and the kind are to come. -/
def oneOfEach : Expr :=
  .operation "select"
    [.placeholder ⟨some "column"⟩, .keyword "distinct-on", .placeholder ⟨some "kind"⟩,
     .keyword "from", .identifier "t"]

/-- The kind is written before the column, so the first placeholder of the tree becomes `$2`; names
    are quoted, and parameters are not. -/
theorem numbered_eq_statement_of_parameters_oneOfEach :
    let c : Compiler := { registry := .builtin, config := { quoteNames := true } }
    let t : Template :=
      ⟨⟨[.text "(SELECT DISTINCT ON (", .slot ⟨some "kind"⟩, .text ") ", .slot ⟨some "column"⟩,
        .text " FROM \"t\")"]⟩, { quoteNames := true }⟩
    (oneOfEach.placeholders.map (·.name)).Nodup ∧ c.template oneOfEach = .ok t ∧
      c.statement (.operation "select"
        [.identifier "$2", .keyword "distinct-on", .identifier "$1", .keyword "from",
         .identifier "t"]) = .ok "(SELECT DISTINCT ON ($1) $2 FROM \"t\")" := by
  intro c t
  have hget : Registry.builtin.get? "select" =
      some (.custom ⟨Query.select, Query.select_within⟩) := by
    rw [Registry.get?_builtin]
    rfl
  have hlayout : Registry.builtin.layoutOf oneOfEach =
      [.text "(SELECT ", .text "DISTINCT ON (", .part (.placeholder ⟨some "kind"⟩), .text ") ",
       .part (.placeholder ⟨some "column"⟩), .text " FROM ", .part (.identifier "t"),
       .text ")"] := by
    rw [oneOfEach, Registry.layoutOf,
      Registry.layout_eq Registry.Declared.builtin.next?_eq_none, hget]
    rfl
  have htemplate : c.template oneOfEach = .ok t := by
    have ht : Name.write true "t" = "\"t\"" := by decide
    simp only [template, write, writeInto, c, Registry.atoms_eq _ oneOfEach, hlayout]
    simp [Registry.atoms_eq, Registry.layoutOf, writeAtoms, writeAtom, ht]
    rfl
  have hnames : (oneOfEach.placeholders.map (·.name)).Nodup := by
    simp [oneOfEach, Expr.placeholders_operation]
  refine ⟨hnames, htemplate, ?_⟩
  obtain ⟨hname, -, hstatement⟩ := numbered_eq_statement_of_parameters.1 c oneOfEach t
    (fun _ => "") (.inl rfl) hnames htemplate
  have hsubst : oneOfEach.subst (fun p => .identifier (t.parameterName (fun _ => "") p)) =
      .operation "select"
        [.identifier "$2", .keyword "distinct-on", .identifier "$1", .keyword "from",
         .identifier "t"] := by
    simp only [oneOfEach, Expr.subst, Expr.substAll, hname 0 ⟨some "kind"⟩ rfl,
      hname 1 ⟨some "column"⟩ rfl]
    rfl
  rw [hsubst] at hstatement
  exact hstatement

end Compiler
end SqlForms
