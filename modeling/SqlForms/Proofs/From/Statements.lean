import SqlForms.Proofs.From.Markers
import SqlForms.Proofs.Placeholders.Tree

/-! # From lists in queries and updates

    A query and an update write their from list in the same way, between what
    comes before it and what comes after it (`From.Stands`).  So the grammar
    of from lists decides which of these statements are written, and which
    joins they have.  A misplaced marker is written as a name. -/

namespace SqlForms

namespace From

open Compiler (write_identifier accepts_identifier)
open Fragments (Built)

/-- A query or an update with a from list of the given items, and what is written before and after
    the list. -/
inductive Stands (es : List Expr) : String → Expr → Layout → Layout → Prop where
  | select {operands : List Expr} {b : Bound} :
      Clause.splitLeading "select" Query.selectClauses operands = .ok b →
      (b.has "distinct" && b.has "distinct-on") = false → b.get? "from" = some es →
      Stands es "select" (.operation "select" operands)
        (.concat [["(SELECT "], Query.distinctLayout b,
          .joined ", " ((b.get? "columns").getD []), [" FROM "]])
        (.concat [Query.whereLayout b, .leadingAll " GROUP BY " (b.get? "group-by"),
          .leading " HAVING " (b.single? "having"), [")"]])
  | update {table : Expr} {rest : List Expr} {b : Bound} {ps : List (Expr × Expr)} :
      Clause.split "update" Change.updateClauses rest = .ok b →
      Change.assignments "update" b = .ok ps → b.get? "from" = some es →
      Stands es "update" (.operation "update" (table :: rest))
        (.concat [["UPDATE ", .part table, " SET "], .separated ", " (ps.map Change.assignment),
          [" FROM "]])
        (.concat [Query.whereLayout b, Query.returningLayout b])

namespace Stands

variable {es : List Expr} {operator : String} {e : Expr} {before after : Layout}

/-- The form that lays out a statement with a from list. -/
def form (operator : String) : List Expr → Layout :=
  if operator = "select" then Query.select else Change.update

/-- A statement is laid out around its from list, by its form. -/
theorem exists_form (h : Stands es operator e before after) :
    ∃ operands, e = .operation operator operands ∧
      form operator operands = before ++ (layout operator es ++ after) := by
  cases h with
  | @select operands b hb hd hf =>
      refine ⟨operands, rfl, ?_⟩
      show Query.select operands = _
      rw [Query.select, hb]
      show Layout.ofExcept (if (b.has "distinct" && b.has "distinct-on") = true then _ else _) = _
      rw [hd, if_neg Bool.false_ne_true]
      show Query.selectLayout b = _
      simp [Query.selectLayout, Query.fromLayout, hf, Layout.concat]
  | @update table rest b ps hb hp hf =>
      refine ⟨table :: rest, rfl, ?_⟩
      show Change.update (table :: rest) = _
      rw [Change.update, hb]
      show Layout.ofExcept (Change.assignments "update" b >>= _) = _
      rw [hp]
      simp [Query.fromLayout, hf, Layout.concat, Layout.ofExcept]

/-- The form of a statement is the one registered for it. -/
theorem layout_eq_form {r : Registry} (hr : r = .builtin ∨ r = Registry.builtin.strict)
    (h : Stands es operator e before after) (operands : List Expr) :
    r.layout operator operands = form operator operands := by
  rw [Registry.layout_eq (Registry.declared_of_builtin hr).next?_eq_none,
    Registry.get?_eq_builtin hr, Registry.get?_builtin]
  cases h <;> rfl

/-- A statement lays out its from list between what it writes before and after. -/
theorem layoutOf {r : Registry} (hr : r = .builtin ∨ r = Registry.builtin.strict)
    (h : Stands es operator e before after) :
    r.layoutOf e = before ++ (layout operator es ++ after) := by
  obtain ⟨operands, rfl, hform⟩ := h.exists_form
  exact (h.layout_eq_form hr operands).trans hform

/-- Around a from list are texts, faults and trees. -/
theorem sound (h : Stands es operator e before after) : before.Sound ∧ after.Sound := by
  obtain ⟨operands, -, hform⟩ := h.exists_form
  have hsound : Layout.Sound (form operator operands) := by
    unfold form
    split
    · exact Query.select_sound operands
    · exact Change.update_sound operands
  rw [hform, Layout.sound_append, Layout.sound_append] at hsound
  exact ⟨hsound.1, hsound.2.2⟩

/-- A from list is not empty. -/
theorem ne_nil (h : Stands es operator e before after) : es ≠ [] := by
  cases h with
  | @select operands b hb hd hf =>
      rw [Query.selectClauses, Clause.splitLeading_cons, ← Query.selectClauses] at hb
      have hpartition := (Clause.readFrom_eq_ok "select" (by decide)).mp hb
      have hadmits := hpartition.admits_of_get? (c := ⟨"from", .optional, true⟩)
        (by decide) hf
      exact hadmits.1
  | @update table rest b ps hb hp hf =>
      have hpartition := (Clause.split_eq_ok "update" (by decide)).mp hb
      have hadmits := hpartition.admits_of_get? (c := ⟨"from", .optional, true⟩)
        (by decide) hf
      exact hadmits.1

/-- Nothing around a from list is a fault. -/
theorem clean (h : Stands es operator e before after) : before.Clean ∧ after.Clean := by
  cases h with
  | @select operands b hb hd hf =>
      have hdistinct : (Query.distinctLayout b).Clean := by
        simp only [Query.distinctLayout, Layout.clean_concat, List.forall_mem_cons]
        refine ⟨by split <;> simp, ?_, by simp⟩
        split <;> simp
      simp [hdistinct, Query.whereLayout]
  | @update table rest b ps hb hp hf =>
      simp only [Layout.clean_concat, Layout.clean_separated, List.forall_mem_cons,
        List.forall_mem_map]
      simp [Change.assignment, Query.whereLayout, Query.returningLayout]

variable {c : Compiler}

/-- A statement is written in three steps: what is before its from list, the list, and the rest. -/
theorem write_eq (hr : c.registry = .builtin ∨ c.registry = Registry.builtin.strict)
    (h : Stands es operator e before after) :
    c.write e =
      c.writeAtoms .empty (c.registry.atomsOf before) >>= fun out =>
        c.writeFrom out operator es >>= fun out =>
          c.writeAtoms out (c.registry.atomsOf after) := by
  rw [Compiler.write, Compiler.writeInto, Registry.atoms_eq, h.layoutOf hr,
    Registry.atomsOf_append, Registry.atomsOf_append, Compiler.writeAtoms_append]
  congr 1
  funext out
  rw [Compiler.writeAtoms_append]
  rfl

end Stands

/-! ## Lists in statements -/

variable {c : Compiler}

/-- Texts and trees that can be written are written. -/
theorem exists_writeAtoms {l : Layout} (hsound : l.Sound) (hclean : l.Clean)
    (hparts : ∀ x, .part x ∈ l → c.Accepts x) {out : Fragments} (hout : Built out) :
    ∃ f, c.writeAtoms out (c.registry.atomsOf l) = .ok f := by
  induction l generalizing out with
  | nil => exact ⟨out, rfl⟩
  | cons p l ih =>
      obtain ⟨hp, hsound'⟩ := Layout.sound_cons.mp hsound
      have hrest : ∀ x, .part x ∈ l → c.Accepts x := fun x hx =>
        hparts x (List.mem_cons_of_mem p hx)
      have hclean' : Layout.Clean l := fun x hx => hclean x (List.mem_cons_of_mem p hx)
      cases p with
      | part x =>
          obtain ⟨g, hg⟩ := hparts x List.mem_cons_self
          rw [Registry.atomsOf_part, Compiler.writeAtoms_tree hout, hg]
          exact ih hsound' hclean' hrest (hout.append (Compiler.built_write hg))
      | atom a =>
          cases a with
          | text s => exact ih hsound' hclean' hrest (hout.pushText s)
          | refuse x => exact absurd List.mem_cons_self (hclean x)
          | _ => cases hp

/-- **From lists follow their grammar.**  A list is written exactly when it reads as a table and
    elements whose trees are written, and then as these elements in order.  A list of trees that
    can be written is refused as malformed when it does not read so.  A query or an update writes
    its list in this way, between what comes before it and what comes after. -/
theorem exists_writeFrom_iff_reading (c : Compiler)
    (hr : c.registry = .builtin ∨ c.registry = Registry.builtin.strict) (operator : String)
    (es : List Expr) (hes : es ≠ []) (out : Fragments) (hout : Built out) :
    ((∃ f, c.writeFrom out operator es = .ok f) ↔
      ∃ r : Reading, r.items = es ∧ ∀ e ∈ r.trees, c.Accepts e) ∧
    (∀ r : Reading, r.items = es →
      c.writeFrom out operator es = (r.write c).map (out ++ ·)) ∧
    ((∀ r : Reading, r.items ≠ es) → (∀ e ∈ es, c.Accepts e) →
      ∃ fault, c.writeFrom out operator es = .error (.malformed operator fault)) ∧
    ∀ e before after, Stands es operator e before after →
      c.write e =
        c.writeAtoms .empty (c.registry.atomsOf before) >>= fun out =>
          c.writeFrom out operator es >>= fun out =>
            c.writeAtoms out (c.registry.atomsOf after) := by
  have hread : ∀ r : Reading, r.items = es →
      c.writeFrom out operator es = (r.write c).map (out ++ ·) := by
    rintro r rfl
    exact r.writeFrom_items operator hout
  refine ⟨⟨?_, ?_⟩, hread, writeFrom_fault hes hout, fun e before after h => h.write_eq hr⟩
  · rintro ⟨f, hf⟩
    obtain ⟨r, hitems⟩ := exists_reading hes hf
    rw [hread r hitems] at hf
    obtain ⟨g, hg, -⟩ := map_eq_ok.mp hf
    exact ⟨r, hitems, r.exists_write_iff.mp ⟨g, hg⟩⟩
  · rintro ⟨r, hitems, htrees⟩
    obtain ⟨g, hg⟩ := r.exists_write_iff.mpr htrees
    exact ⟨_, (hread r hitems).trans (map_eq_ok.mpr ⟨g, hg, rfl⟩)⟩

/-- A list with a table, a cross join and a left join, and one that ends before the condition of
    its join. -/
theorem exists_writeFrom_iff_reading_mixed :
    let c : Compiler := { registry := .builtin }
    let es : List Expr :=
      [.identifier "t", .keyword "cross-join", .identifier "u", .identifier "v",
       .keyword "left-join", .identifier "w", .keyword "on", .identifier "p"]
    es ≠ [] ∧ es.take 7 ≠ [] ∧
      (c.writeFrom .empty "update" es).map Fragments.sql? =
        .ok (some "t CROSS JOIN u, v LEFT JOIN w ON p") ∧
      ∃ fault, c.writeFrom .empty "update" (es.take 7) = .error (.malformed "update" fault) := by
  intro c es
  have hes : es ≠ [] := List.cons_ne_nil _ _
  have htake : es.take 7 ≠ [] := List.cons_ne_nil _ _
  obtain ⟨-, hread, -⟩ :=
    exists_writeFrom_iff_reading c (.inl rfl) "update" es hes .empty .empty
  obtain ⟨-, -, hfault, -⟩ :=
    exists_writeFrom_iff_reading c (.inl rfl) "update" (es.take 7) htake .empty .empty
  refine ⟨hes, htake, ?_, hfault ?_ ?_⟩
  · rw [hread ⟨.identifier "t", by decide, [.crossJoin (.identifier "u"),
      .table (.identifier "v") (by decide), .join .left (.identifier "w") (.identifier "p")]⟩ rfl]
    have hquote : c.config.quoteNames = false := rfl
    have hnames : Name.write false "t" = "t" ∧ Name.write false "u" = "u" ∧
        Name.write false "v" = "v" ∧ Name.write false "w" = "w" ∧ Name.write false "p" = "p" := by
      decide +kernel
    simp only [Reading.write, writeElements, Element.write, write_identifier, List.foldlM, hquote,
      hnames]
    rfl
  · intro r
    exact r.items_ne_incomplete ⟨.identifier "t", by decide, [.crossJoin (.identifier "u"),
      .table (.identifier "v") (by decide)]⟩ .left (by decide)
  · simp [es]

/-! ## Joins in statements -/

namespace Stands

variable {es : List Expr} {operator : String} {e : Expr} {before after : Layout}

/-- What stands around a from list is written when its trees can be. -/
theorem exists_around (h : Stands es operator e before after)
    (hparts : ∀ x, .part x ∈ before ++ after → c.Accepts x) :
    (∃ f, c.writeAtoms .empty (c.registry.atomsOf before) = .ok f) ∧
      ∀ {out}, Built out → ∃ f, c.writeAtoms out (c.registry.atomsOf after) = .ok f := by
  constructor
  · exact exists_writeAtoms h.sound.1 h.clean.1
      (fun x hx => hparts x (List.mem_append_left _ hx)) .empty
  · intro out hout
    exact exists_writeAtoms h.sound.2 h.clean.2
      (fun x hx => hparts x (List.mem_append_right _ hx)) hout

end Stands

/-- **Markers and joins.**  In a query or an update that is written, each marker of the from list
    introduces a join exactly when none is misplaced.  Where everything in the statement can be
    written, its list is refused as malformed exactly when it cannot be read: a misplaced marker
    alone is not a fault. -/
theorem markers_eq_joins_iff (c : Compiler)
    (hr : c.registry = .builtin ∨ c.registry = Registry.builtin.strict) (es : List Expr)
    (operator : String) (e : Expr) (before after : Layout)
    (hs : Stands es operator e before after) :
    (∀ f, c.write e = .ok f → ∃ r : Reading, r.items = es ∧
      (∃ a g, c.writeAtoms .empty (c.registry.atomsOf before) = .ok a ∧ r.write c = .ok g ∧
        c.writeAtoms (a ++ g) (c.registry.atomsOf after) = .ok f) ∧
      (es.countP IsMarker = r.joins ↔ ¬ Misplaced es)) ∧
    ((∀ x, .part x ∈ before ++ after → c.Accepts x) → (∀ x ∈ es, c.Accepts x) →
      ((∃ fault, c.write e = .error (.malformed operator fault)) ↔
        ∀ r : Reading, r.items ≠ es)) := by
  have hwrite := hs.write_eq hr
  refine ⟨fun f hf => ?_, fun hparts hitems => ⟨?_, ?_⟩⟩
  · obtain ⟨a, ha, hf⟩ := bind_eq_ok.mp (hwrite.symm.trans hf)
    obtain ⟨out, hout, hf⟩ := bind_eq_ok.mp hf
    obtain ⟨r, rfl⟩ := exists_reading hs.ne_nil hout
    rw [r.writeFrom_items operator (Compiler.built_writeAtoms .empty ha)] at hout
    obtain ⟨g, hg, rfl⟩ := map_eq_ok.mp hout
    exact ⟨r, rfl, ⟨a, g, ha, hg, hf⟩, r.countP_eq_joins_iff⟩
  · -- A list that is read is written, and so is the whole statement.
    rintro ⟨fault, herror⟩ r rfl
    obtain ⟨⟨a, ha⟩, hafter⟩ := hs.exists_around hparts
    obtain ⟨g, hg⟩ := r.exists_write_iff.mpr fun x hx => hitems x (r.trees_subset_items hx)
    have hbuilt := Compiler.built_writeAtoms .empty ha
    have hfrom := r.writeFrom_items (c := c) operator hbuilt
    rw [hg] at hfrom
    obtain ⟨f, hf⟩ := hafter (Compiler.built_writeAtoms hbuilt hfrom)
    have hok : c.write e = .ok f := by
      rw [hwrite]
      exact bind_eq_ok.mpr ⟨a, ha, bind_eq_ok.mpr ⟨_, hfrom, hf⟩⟩
    rw [hok] at herror
    cases herror
  · intro hno
    obtain ⟨⟨a, ha⟩, -⟩ := hs.exists_around hparts
    have hbuilt := Compiler.built_writeAtoms .empty ha
    obtain ⟨fault, hfault⟩ : ∃ fault,
        c.writeFrom a operator es = .error (.malformed operator fault) :=
      writeFrom_fault hs.ne_nil hbuilt hno hitems
    refine ⟨fault, ?_⟩
    rw [hwrite, ha]
    show c.writeFrom a operator es >>= _ = _
    rw [hfault]
    rfl

/-- A list that ends in a join whose target is a marker and that has no condition. -/
theorem markers_eq_joins_iff_unfinished :
    let c : Compiler := { registry := .builtin }
    let es : List Expr :=
      [.identifier "t", .keyword "left-join", .keyword "inner-join", .keyword "on"]
    let e : Expr := .operation "select" (.identifier "a" :: .keyword "from" :: es)
    (∃ before after, Stands es "select" e before after) ∧ Misplaced es ∧
      ∃ fault, c.write e = .error (.malformed "select" fault) := by
  intro c es e
  let b : Bound := [("columns", [.identifier "a"]), ("from", es)]
  have hb : Clause.splitLeading "select" Query.selectClauses
      (.identifier "a" :: .keyword "from" :: es) = .ok b := rfl
  have hfrom : b.get? "from" = some es := rfl
  have hs := Stands.select hb rfl hfrom
  have hmisplaced : Misplaced es :=
    ⟨⟨.identifier "t", by decide, []⟩, es.tail, rfl,
      .inl ⟨_, _, _, rfl, .inr ⟨.left, rfl⟩, .inr ⟨.inner, rfl⟩⟩⟩
  obtain ⟨-, hrefused⟩ := markers_eq_joins_iff c (.inl rfl) es "select" e _ _ hs
  refine ⟨⟨_, _, hs⟩, hmisplaced, (hrefused ?_ ?_).mpr ?_⟩
  · intro x hx
    have haround : .part x ∈
        ([.text "(SELECT ", .part (.identifier "a"), .text " FROM ", .text ")"] : Layout) := hx
    have hcolumn : x = .identifier "a" := by simpa using haround
    rw [hcolumn]
    exact accepts_identifier "a"
  · simp [es]
  · intro r
    exact r.items_ne_incomplete ⟨.identifier "t", by decide, []⟩ .left (by decide)

/-- A from list with a marker as the target of one join and another as the condition of a
    second. -/
def misplacedJoins : List Expr :=
  [.identifier "t", .keyword "cross-join", .keyword "left-join", .keyword "inner-join",
   .identifier "u", .keyword "on", .keyword "right-join"]

/-- Misplaced markers are written as names and make no joins. -/
theorem statement_misplacedJoins :
    let c : Compiler := { registry := .builtin }
    Misplaced misplacedJoins ∧ misplacedJoins.countP IsMarker = 4 ∧
      (∃ r : Reading, r.items = misplacedJoins ∧ r.joins = 2) ∧
      c.statement (.operation "select" (.identifier "a" :: .keyword "from" :: misplacedJoins)) =
        .ok "(SELECT a FROM t CROSS JOIN left_join INNER JOIN u ON right_join)" := by
  intro c
  have hmisplaced : Misplaced misplacedJoins :=
    ⟨⟨.identifier "t", by decide, []⟩, misplacedJoins.tail, rfl,
      .inl ⟨_, _, _, rfl, .inl rfl, .inr ⟨.left, rfl⟩⟩⟩
  have hreading : ∃ r : Reading, r.items = misplacedJoins ∧ r.joins = 2 :=
    ⟨⟨.identifier "t", by decide, [.crossJoin (.keyword "left-join"),
      .join .inner (.identifier "u") (.keyword "right-join")]⟩, rfl, rfl⟩
  refine ⟨hmisplaced, by decide, hreading, ?_⟩
  have hget : Registry.builtin.get? "select" =
      some (.custom ⟨Query.select, Query.select_within⟩) := by
    rw [Registry.get?_builtin]
    rfl
  have hlayout : Registry.builtin.layoutOf
      (.operation "select" (.identifier "a" :: .keyword "from" :: misplacedJoins)) =
      [.text "(SELECT ", .part (.identifier "a"), .text " FROM ", .part (.identifier "t"),
       .text " CROSS JOIN ", .part (.keyword "left-join"), .text " INNER JOIN ",
       .part (.identifier "u"), .text " ON ", .part (.keyword "right-join"), .text ")"] := by
    rw [Registry.layoutOf, Registry.layout_eq Registry.Declared.builtin.next?_eq_none, hget]
    rfl
  have hnames : Name.write false "a" = "a" ∧ Name.write false "t" = "t" ∧
      Name.write false "u" = "u" ∧ Name.write false "left-join" = "left_join" ∧
      Name.write false "right-join" = "right_join" := by
    decide +kernel
  simp only [Compiler.statement, Compiler.write, Compiler.writeInto, c,
    Registry.atoms_eq _ (.operation _ _), hlayout]
  simp [Registry.atoms_eq, Registry.layoutOf, Compiler.writeAtoms, Compiler.writeAtom, hnames]
  rfl

end From
end SqlForms
