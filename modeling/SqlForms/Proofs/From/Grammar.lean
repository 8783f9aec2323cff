import SqlForms.Proofs.Layouts

/-! # The grammar of from lists

    A from list starts with a table and goes on with elements: further
    tables, cross joins, and joins with a condition.  Writing a list follows
    this grammar exactly.

    * `From.Reading` is a list that was read: its first table and its
      elements.  An element knows the items it takes up (`Element.items`) and
      what it writes (`Element.write`);
    * one turn of the loop reads one element (`items_append`), so a list that
      is read from the left is laid out element by element
      (`layout_reading`);
    * a list that cannot be read to its end breaks off behind the elements
      before (`items_cases`), with a fault of the form. -/

namespace SqlForms

namespace From

/-! ## Lists and their readings -/

/-- The joins that take a condition. -/
inductive Join where
  | inner
  | left
  | right
  | outer
  deriving DecidableEq, Repr

namespace Join

/-- The keyword of a join. -/
def marker : Join → String
  | inner => "inner-join"
  | left => "left-join"
  | right => "right-join"
  | outer => "outer-join"

/-- The text of a join. -/
def text : Join → String
  | inner => " INNER JOIN "
  | left => " LEFT JOIN "
  | right => " RIGHT JOIN "
  | outer => " FULL OUTER JOIN "

end Join

/-- Whether a tree is a keyword that marks a join. -/
def IsMarker (e : Expr) : Prop :=
  e = .keyword "cross-join" ∨ ∃ j : Join, e = .keyword j.marker

/-- An element of a from list after its first table. -/
inductive Element where
  | table (e : Expr) (plain : ¬ IsMarker e)
  | crossJoin (target : Expr)
  | join (j : Join) (target condition : Expr)

namespace Element

/-- The items that an element takes up. -/
def items : Element → List Expr
  | table e _ => [e]
  | crossJoin target => [.keyword "cross-join", target]
  | join j target condition => [.keyword j.marker, target, .keyword "on", condition]

/-- The trees of an element that are written. -/
def trees : Element → List Expr
  | table e _ => [e]
  | crossJoin target => [target]
  | join _ target condition => [target, condition]

/-- What an element writes: a table after a comma, a join after its text. -/
def write (c : Compiler) : Element → Except Error Fragments
  | table e _ => do
      let table ← c.write e
      return .ofText ", " ++ table
  | crossJoin target => do
      let target ← c.write target
      return .ofText " CROSS JOIN " ++ target
  | join j target condition => do
      let target ← c.write target
      let condition ← c.write condition
      return .ofText j.text ++ target ++ .ofText " ON " ++ condition

end Element

/-- Writes elements in turn at the end of a sequence. -/
def writeElements (c : Compiler) (xs : List Element) (out : Fragments) : Except Error Fragments :=
  xs.foldlM (fun out x => (x.write c).map (out ++ ·)) out

/-- A from list that was read: a table, and elements after it. -/
structure Reading where
  first : Expr
  plain : ¬ IsMarker first
  rest : List Element

namespace Reading

/-- The items of a list. -/
def items (r : Reading) : List Expr :=
  r.first :: r.rest.flatMap Element.items

/-- The trees of a list that are written. -/
def trees (r : Reading) : List Expr :=
  r.first :: r.rest.flatMap Element.trees

/-- What a list writes: its first table and its elements, in order. -/
def write (c : Compiler) (r : Reading) : Except Error Fragments := do
  let first ← c.write r.first
  writeElements c r.rest first

end Reading

/-! ## Markers -/

/-- The table of joins lists the four joins with a condition and nothing else. -/
theorem lookup_conditionalJoins {name sql : String} :
    conditionalJoins.lookup name = some sql ↔ ∃ j : Join, name = j.marker ∧ sql = j.text := by
  constructor
  · intro h
    obtain ⟨before, after, hjoins, -⟩ := List.lookup_eq_some_iff.mp h
    have hmem : (name, sql) ∈ conditionalJoins := by
      rw [hjoins]
      exact List.mem_append_right _ List.mem_cons_self
    have hall : ∀ row ∈ conditionalJoins, ∃ j : Join, row.1 = j.marker ∧ row.2 = j.text := by
      intro row hrow
      simp only [conditionalJoins, List.mem_cons, List.not_mem_nil, or_false] at hrow
      rcases hrow with rfl | rfl | rfl | rfl
      · exact ⟨.inner, rfl, rfl⟩
      · exact ⟨.left, rfl, rfl⟩
      · exact ⟨.right, rfl, rfl⟩
      · exact ⟨.outer, rfl, rfl⟩
    exact hall _ hmem
  · rintro ⟨j, rfl, rfl⟩
    cases j <;> rfl

/-- No join with a condition has the keyword of the cross join. -/
theorem marker_ne_cross (j : Join) : j.marker ≠ "cross-join" := by
  cases j <;> decide

/-- No two joins have the same keyword. -/
theorem marker_injective {j j' : Join} (h : j.marker = j'.marker) : j = j' := by
  revert h
  cases j <;> cases j' <;> decide

/-- The keyword of a join is read as that join. -/
theorem classify_join (j : Join) : classify (.keyword j.marker) = .join j.marker j.text := by
  cases j <;> rfl

/-- What is no marker is a table. -/
theorem classify_plain {e : Expr} (h : ¬ IsMarker e) : classify e = .table := by
  cases e with
  | keyword name =>
      have hcross : name ≠ "cross-join" := fun he => h (.inl (congrArg Expr.keyword he))
      have hjoin : conditionalJoins.lookup name = none := by
        rw [Option.eq_none_iff_forall_ne_some]
        intro sql hsql
        obtain ⟨j, hj, -⟩ := lookup_conditionalJoins.mp hsql
        exact h (.inr ⟨j, congrArg Expr.keyword hj⟩)
      show (if name = "cross-join" then Item.crossJoin else _) = Item.table
      rw [if_neg hcross, hjoin]
  | _ => rfl

/-- A tree is a table, the marker of the cross join, or that of a join with a condition. -/
theorem marker_cases (e : Expr) :
    ¬ IsMarker e ∨ e = .keyword "cross-join" ∨ ∃ j : Join, e = .keyword j.marker := by
  by_cases h : IsMarker e
  · exact .inr h
  · exact .inl h

/-! ## The loop -/

/-- What an element adds to a layout. -/
def Element.layout : Element → Layout
  | table e _ => [", ", .part e]
  | crossJoin target => [" CROSS JOIN ", .part target]
  | join j target condition => [.text j.text, .part target, " ON ", .part condition]

section Loop

variable (operator : String)

/-- One turn of the loop reads one element. -/
theorem items_append (x : Element) (rest : List Expr) :
    items operator false (x.items ++ rest) = x.layout ++ items operator false rest := by
  cases x with
  | table e plain =>
      show items operator false (e :: rest) = _
      rw [items.eq_def]
      simp only [classify_plain plain]
      rfl
  | crossJoin target => rfl
  | join j target condition =>
      show items operator false
        (.keyword j.marker :: target :: .keyword "on" :: condition :: rest) = _
      rw [items.eq_def]
      simp only [classify_join]
      rfl

/-- The loop reads element after element. -/
theorem items_elements (xs : List Element) :
    items operator false (xs.flatMap Element.items) = xs.flatMap Element.layout := by
  induction xs with
  | nil => rfl
  | cons x xs ih => rw [List.flatMap_cons, items_append, ih, List.flatMap_cons]

/-- After a first table come the elements. -/
theorem layout_plain {e : Expr} (plain : ¬ IsMarker e) (rest : List Expr) :
    layout operator (e :: rest) = .part e :: items operator false rest := by
  rw [layout, if_pos (classify_plain plain), items.eq_def]
  simp only [classify_plain plain]
  rfl

/-- A keyword of a join has no place before the first table. -/
theorem layout_marker {e : Expr} (h : IsMarker e) (rest : List Expr) :
    layout operator (e :: rest) = .refuse (.malformed operator (.joinFirst e)) := by
  rcases h with rfl | ⟨j, rfl⟩
  · rfl
  · rw [layout, classify_join]
    rfl

/-- A list that is read is laid out element by element. -/
theorem layout_reading (r : Reading) :
    layout operator r.items = .part r.first :: r.rest.flatMap Element.layout := by
  rw [Reading.items, layout_plain operator r.plain, items_elements]

/-- A join with less behind its marker than it takes. -/
theorem items_incomplete (j : Join) {rest : List Expr} (h : rest.length < 3) :
    items operator false (.keyword j.marker :: rest) =
      .refuse (.malformed operator (.incompleteJoin j.marker)) := by
  rw [items.eq_def]
  simp only [classify_join]
  rcases rest with _ | ⟨target, _ | ⟨on, _ | ⟨condition, rest⟩⟩⟩
  · rfl
  · rfl
  · rfl
  · simp only [List.length_cons] at h
    omega

/-- A join with something else where the keyword before its condition should be. -/
theorem items_without_on (j : Join) (target condition : Expr) (rest : List Expr) {on : Expr}
    (h : on ≠ .keyword "on") :
    items operator false (.keyword j.marker :: target :: on :: condition :: rest) =
      .refuse (.malformed operator (.joinWithoutOn j.marker on)) := by
  have hon : on.isKeyword "on" = false := by
    cases on with
    | keyword name => exact beq_eq_false_iff_ne.mpr fun he => h (congrArg Expr.keyword he)
    | _ => rfl
  rw [items.eq_def]
  simp only [classify_join, hon]
  rfl

/-- Whether a list after its first table is read to its end, or breaks off behind some of its
    elements with a fault of the form. -/
def Settled (es : List Expr) : Prop :=
  (∃ xs : List Element, xs.flatMap Element.items = es) ∨
    ∃ (xs : List Element) (rest : List Expr) (fault : FormFault),
      es = xs.flatMap Element.items ++ rest ∧
        items operator false es =
          xs.flatMap Element.layout ++ .refuse (.malformed operator fault)

variable {operator}

private theorem Settled.of_fault {es : List Expr} (fault : FormFault)
    (h : items operator false es = .refuse (.malformed operator fault)) : Settled operator es :=
  .inr ⟨[], es, fault, rfl, h⟩

/-- One more element in front leaves it open what a list comes to. -/
theorem Settled.cons (x : Element) {es : List Expr} (h : Settled operator es) :
    Settled operator (x.items ++ es) := by
  rcases h with ⟨xs, rfl⟩ | ⟨xs, rest, fault, rfl, hl⟩
  · exact .inl ⟨x :: xs, List.flatMap_cons⟩
  · refine .inr ⟨x :: xs, rest, fault, ?_, ?_⟩
    · rw [List.flatMap_cons, List.append_assoc]
    · rw [items_append, hl, List.flatMap_cons, List.append_assoc]

variable (operator)

/-- Every list is read to its end or breaks off. -/
theorem items_cases (es : List Expr) : Settled operator es := by
  -- Each turn takes up one, two or four items; the marker says how many.
  cases es with
  | nil => exact .inl ⟨[], rfl⟩
  | cons e rest =>
      rcases marker_cases e with plain | rfl | ⟨j, rfl⟩
      · exact (items_cases rest).cons (.table e plain)
      · cases rest with
        | nil => exact .of_fault .crossJoinWithoutTable rfl
        | cons target rest => exact (items_cases rest).cons (.crossJoin target)
      · rcases rest with _ | ⟨target, _ | ⟨on, _ | ⟨condition, rest⟩⟩⟩
        · exact .of_fault _ (items_incomplete operator j (by simp))
        · exact .of_fault _ (items_incomplete operator j (by simp))
        · exact .of_fault _ (items_incomplete operator j (by simp))
        · by_cases hon : on = .keyword "on"
          · rw [hon]
            exact (items_cases rest).cons (.join j target condition)
          · exact .of_fault _ (items_without_on operator j target condition rest hon)
termination_by es.length

/-- A list that is not empty is read, or it breaks off: at once, or behind a list that is read. -/
theorem layout_cases {es : List Expr} (hes : es ≠ []) :
    (∃ r : Reading, r.items = es) ∨
      ∃ (l : Layout) (fault : FormFault),
        layout operator es = l ++ .refuse (.malformed operator fault) ∧
          (l = [] ∨ ∃ (r : Reading) (rest : List Expr),
            es = r.items ++ rest ∧ l = layout operator r.items) := by
  obtain ⟨e, rest, rfl⟩ := List.exists_cons_of_ne_nil hes
  by_cases hmarker : IsMarker e
  · exact .inr ⟨[], .joinFirst e, layout_marker operator hmarker rest, .inl rfl⟩
  · rcases items_cases operator rest with ⟨xs, rfl⟩ | ⟨xs, after, fault, rfl, hl⟩
    · exact .inl ⟨⟨e, hmarker, xs⟩, rfl⟩
    · refine .inr ⟨layout operator (Reading.items ⟨e, hmarker, xs⟩), fault, ?_, .inr ?_⟩
      · rw [layout_plain operator hmarker, hl, layout_reading]
        rfl
      · exact ⟨⟨e, hmarker, xs⟩, after, rfl, rfl⟩

end Loop

end From

/-! ## Writing -/

namespace Compiler

/-- Writes a from list at the end of a sequence. -/
def writeFrom (c : Compiler) (out : Fragments) (operator : String) (es : List Expr) :
    Except Error Fragments :=
  c.writeAtoms out (c.registry.atomsOf (From.layout operator es))

end Compiler

namespace From

open Fragments (Built)

variable {c : Compiler}

/-- Two steps go through exactly when the first does and, whatever it gives, the second does. -/
theorem exists_bind_iff {α β : Type} {x : Except Error α} {k : α → Except Error β} {P : Prop}
    (hk : ∀ a, (∃ b, k a = .ok b) ↔ P) :
    (∃ b, x >>= k = .ok b) ↔ (∃ a, x = .ok a) ∧ P := by
  constructor
  · rintro ⟨b, h⟩
    obtain ⟨a, ha, hb⟩ := bind_eq_ok.mp h
    exact ⟨⟨a, ha⟩, (hk a).mp ⟨b, hb⟩⟩
  · rintro ⟨⟨a, ha⟩, hP⟩
    obtain ⟨b, hb⟩ := (hk a).mpr hP
    exact ⟨b, bind_eq_ok.mpr ⟨a, ha, hb⟩⟩

/-- A step whose result is only used goes through exactly when the step does. -/
theorem exists_return_iff {α β : Type} {x : Except Error α} {g : α → β} :
    (∃ b, (x >>= fun a => .ok (g a)) = .ok b) ↔ ∃ a, x = .ok a := by
  rw [exists_bind_iff fun a => iff_true_intro ⟨g a, rfl⟩, and_true]

/-- A text and a tree after it. -/
theorem writeAtoms_lead (lead : String) (e : Expr) :
    c.writeAtoms .empty (.text lead :: (c.registry.atoms e ++ [])) =
      c.write e >>= fun f => .ok (.ofText lead ++ f) :=
  Compiler.writeAtoms_tree (.ofText lead) e []

namespace Element

/-- The layout of an element is written as the element is. -/
theorem writeAtoms_layout (x : Element) :
    c.writeAtoms .empty (c.registry.atomsOf x.layout) = x.write c := by
  cases x with
  | table e plain => exact writeAtoms_lead ", " e
  | crossJoin target => exact writeAtoms_lead " CROSS JOIN " target
  | join j target condition =>
      have htarget := Compiler.writeAtoms_tree (c := c) (.ofText j.text) target
        (.text " ON " :: (c.registry.atoms condition ++ []))
      refine htarget.trans ?_
      rw [write]
      cases hf : c.write target with
      | error x => rfl
      | ok f =>
          have hout : Built (.ofText j.text ++ f) := .append (.ofText _) (Compiler.built_write hf)
          show c.writeAtoms ((.ofText j.text ++ f).pushText " ON ") _ = _
          rw [← Fragments.append_ofText]
          exact Compiler.writeAtoms_tree (hout.append (.ofText _)) condition []

/-- What an element writes is built up from nothing. -/
theorem built_write {x : Element} {f : Fragments} (h : x.write c = .ok f) : Built f :=
  Compiler.built_writeAtoms .empty ((writeAtoms_layout x).trans h)

/-- An element is written exactly when its trees are. -/
theorem exists_write_iff (x : Element) :
    (∃ f, x.write c = .ok f) ↔ ∀ e ∈ x.trees, c.Accepts e := by
  cases x with
  | table e plain =>
      rw [trees, List.forall_mem_singleton]
      exact exists_return_iff
  | crossJoin target =>
      rw [trees, List.forall_mem_singleton]
      exact exists_return_iff
  | join j target condition =>
      rw [trees, List.forall_mem_cons, List.forall_mem_singleton]
      exact exists_bind_iff fun f => exists_return_iff

end Element

/-- The layouts of elements are written as the elements are. -/
theorem writeAtoms_elements (xs : List Element) {out : Fragments} (hout : Built out) :
    c.writeAtoms out (c.registry.atomsOf (xs.flatMap Element.layout)) = writeElements c xs out := by
  induction xs generalizing out with
  | nil => rfl
  | cons x xs ih =>
      rw [List.flatMap_cons, Registry.atomsOf_append, Compiler.writeAtoms_append,
        Compiler.writeAtoms_eq_append hout, Element.writeAtoms_layout, writeElements,
        List.foldlM_cons]
      cases hx : x.write c with
      | error y => rfl
      | ok f => exact ih (hout.append (Element.built_write hx))

/-- Elements are written exactly when their trees are. -/
theorem exists_writeElements_iff (xs : List Element) (out : Fragments) :
    (∃ f, writeElements c xs out = .ok f) ↔ ∀ e ∈ xs.flatMap Element.trees, c.Accepts e := by
  induction xs generalizing out with
  | nil => exact iff_of_true ⟨out, rfl⟩ fun e he => absurd he List.not_mem_nil
  | cons x xs ih =>
      rw [List.flatMap_cons, List.forall_mem_append, ← x.exists_write_iff]
      refine (exists_bind_iff ih).trans (and_congr_left fun _ => ?_)
      constructor
      · rintro ⟨f, hf⟩
        obtain ⟨g, hg, -⟩ := map_eq_ok.mp hf
        exact ⟨g, hg⟩
      · rintro ⟨g, hg⟩
        exact ⟨_, map_eq_ok.mpr ⟨g, hg, rfl⟩⟩

namespace Reading

/-- A list that is read is written element by element. -/
theorem writeFrom_items (r : Reading) (operator : String) {out : Fragments} (hout : Built out) :
    c.writeFrom out operator r.items = (r.write c).map (out ++ ·) := by
  have hempty : c.writeFrom .empty operator r.items = r.write c := by
    rw [Compiler.writeFrom, layout_reading, Registry.atomsOf_part, Compiler.writeAtoms_append,
      write]
    show c.write r.first >>= _ = _
    cases hf : c.write r.first with
    | error x => rfl
    | ok f => exact writeAtoms_elements r.rest (Compiler.built_write hf)
  rw [← hempty]
  exact Compiler.writeAtoms_eq_append hout _

/-- A list can be written exactly when all its trees can. -/
theorem exists_write_iff (r : Reading) :
    (∃ f, r.write c = .ok f) ↔ ∀ e ∈ r.trees, c.Accepts e := by
  rw [trees, List.forall_mem_cons]
  exact exists_bind_iff fun f => exists_writeElements_iff r.rest f

/-- What is written of a list is among its items. -/
theorem trees_subset_items (r : Reading) : r.trees ⊆ r.items := by
  have hrest : r.rest.flatMap Element.trees ⊆ r.rest.flatMap Element.items := by
    intro e he
    obtain ⟨x, hx, he⟩ := List.mem_flatMap.mp he
    refine List.mem_flatMap.mpr ⟨x, hx, ?_⟩
    cases x with
    | table => exact he
    | crossJoin target => exact List.mem_cons_of_mem _ he
    | join j target condition =>
        simp only [Element.trees, Element.items, List.mem_cons, List.not_mem_nil, or_false] at he ⊢
        rcases he with rfl | rfl
        · exact .inr (.inl rfl)
        · exact .inr (.inr (.inr rfl))
  exact List.cons_subset_cons _ hrest

end Reading

section Lists

variable {operator : String} {es : List Expr} {out : Fragments}

/-- A list that is written can be read. -/
theorem exists_reading (hes : es ≠ []) {f : Fragments}
    (h : c.writeFrom out operator es = .ok f) : ∃ r : Reading, r.items = es := by
  rcases layout_cases operator hes with hr | ⟨l, fault, hl, -⟩
  · exact hr
  · rw [Compiler.writeFrom, hl, Registry.atomsOf_append, Compiler.writeAtoms_append] at h
    obtain ⟨_, -, h⟩ := bind_eq_ok.mp h
    cases h

/-- A list whose items can be written and that cannot be read has a fault of the form. -/
theorem writeFrom_fault (hes : es ≠ []) (hout : Built out) (hno : ∀ r : Reading, r.items ≠ es)
    (hall : ∀ e ∈ es, c.Accepts e) :
    ∃ fault, c.writeFrom out operator es = .error (.malformed operator fault) := by
  rcases layout_cases operator hes with ⟨r, hr⟩ | ⟨l, fault, hl, hbefore⟩
  · exact absurd hr (hno r)
  · refine ⟨fault, ?_⟩
    have hwritten : ∃ f, c.writeAtoms out (c.registry.atomsOf l) = .ok f := by
      rcases hbefore with rfl | ⟨r, rest, rfl, rfl⟩
      · exact ⟨out, rfl⟩
      · have htrees : ∀ e ∈ r.trees, c.Accepts e := fun e he =>
          hall e (List.mem_append_left _ (r.trees_subset_items he))
        obtain ⟨f, hf⟩ := r.exists_write_iff.mpr htrees
        have hw := r.writeFrom_items (c := c) operator hout
        rw [hf] at hw
        exact ⟨_, hw⟩
    obtain ⟨f, hf⟩ := hwritten
    rw [Compiler.writeFrom, hl, Registry.atomsOf_append, Compiler.writeAtoms_append, hf]
    rfl

end Lists

end From
end SqlForms
