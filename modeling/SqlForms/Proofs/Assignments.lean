import Mathlib.Data.List.OfFn
import SqlForms.Proofs.Layouts
import SqlForms.Proofs.Partition

/-! # Fields and values

    An insertion and an update take fields and values in turn.  The insertion
    writes all fields and then all values, the update each field with its
    value; the clauses that may come after the items differ as well.  Both
    pair the items in the same way all the same.

    * Without the marker of a later clause among them, all items belong to
      the first clause (`Clause.split_first`), and they are refused by their
      number alone (`Change.unpaired?`);
    * what both statements write is told by one list of pairs, what is
      written for a field and for its value (`Change.Written`), so both are
      written under one condition (`Change.Kind.writes_layout`). -/

namespace SqlForms

namespace Clause

/-- Nothing is left to read when no clause has to come. -/
theorem readFrom_nil {operator : String} {clauses : List Clause}
    (h : ∀ x ∈ clauses, x.presence.isRequired = false) : readFrom operator clauses [] = .ok [] := by
  induction clauses with
  | nil => rfl
  | cons c later ih =>
      obtain ⟨hc, hlater⟩ := List.forall_mem_cons.mp h
      show (if c.presence.isRequired then _ else readFrom operator later []) = _
      rw [hc]
      exact ih hlater

/-- Operands without a later marker all belong to the first clause. -/
theorem split_first (operator : String) (c : Clause) {later : List Clause} {items : List Expr}
    (hlater : ∀ x ∈ later, x.presence.isRequired = false)
    (hitems : ∀ x ∈ later, .keyword x.marker ∉ items) :
    split operator (c :: later) (.keyword c.marker :: items) =
      (c.check operator items).map fun _ => [(c.marker, items)] := by
  have hmarks : marks (c :: later) (.keyword c.marker) = true :=
    marks_eq_true.mpr ⟨c, List.mem_cons_self, rfl⟩
  have hafter : c.after? (.keyword c.marker :: items) = some items := after?_eq_some.mpr rfl
  obtain ⟨hcontent, hremainder⟩ : content later items = items ∧ remainder later items = [] := by
    have h := @content_append later items [] hitems (by simp)
    rwa [List.append_nil] at h
  -- No later marker ends the content, so it is all of the items and nothing is left to read.
  rw [split, if_pos hmarks, readFrom, hafter]
  show take operator c later items (readFrom operator later) = _
  rw [take, hcontent, hremainder, readFrom_nil hlater]
  cases c.check operator items <;> rfl

end Clause

/-- Two steps and what comes after them fail when the two steps do. -/
theorem bind_bind_eq_error {α β γ : Type} {x : Except Error α} {f : α → Except Error β}
    {k : α → β → Except Error γ} {e : Error} (h : x >>= f = .error e) :
    (x >>= fun a => f a >>= k a) = .error e := by
  cases x with
  | error y =>
      cases h
      rfl
  | ok a =>
      have hf : f a = .error e := h
      show f a >>= k a = _
      rw [hf]
      rfl

namespace Change

/-! ## The items of a statement -/

/-- The clause of the items. -/
def setClause : Clause := ⟨"set", .required, true⟩

/-- What is wrong with the number of items: there have to be some, and as many fields as values. -/
def unpaired? : List Expr → Option Count
  | [] => some (.atLeast 1)
  | items => if items.length % 2 = 0 then none else some .even

/-- Items are paired when there are some and their number is even. -/
theorem unpaired?_eq_none {items : List Expr} :
    unpaired? items = none ↔ items ≠ [] ∧ items.length % 2 = 0 := by
  cases items with
  | nil => simp [unpaired?]
  | cons e es =>
      show (if (e :: es).length % 2 = 0 then none else some Count.even) = none ↔ _
      simp

private theorem check_set (operator : String) (e : Expr) (es : List Expr) :
    setClause.check operator (e :: es) = .ok () := by
  cases es <;> rfl

section Items

variable (operator : String) {later : List Clause} {items : List Expr}
  (hlater : ∀ x ∈ later, x.presence.isRequired = false)
  (hitems : ∀ x ∈ later, .keyword x.marker ∉ items)

include hlater hitems

/-- Items that cannot be paired are refused by their number. -/
theorem assignments_of_unpaired {n : Count} (h : unpaired? items = some n) :
    Clause.split operator (setClause :: later) (.keyword "set" :: items) >>= assignments operator =
      .error (.arity (operator ++ " :set") n items.length) := by
  have hsplit := Clause.split_first operator setClause hlater hitems
  cases items with
  | nil =>
      cases h
      have hname : operator ++ " :" ++ "set" = operator ++ " :set" := String.append_assoc
      rw [← hname]
      exact congrArg (· >>= assignments operator) hsplit
  | cons e es =>
      rw [check_set] at hsplit
      have hodd : ¬ (e :: es).length % 2 = 0 := by
        intro heven
        rw [unpaired?_eq_none.mpr ⟨List.cons_ne_nil e es, heven⟩] at h
        cases h
      have hcount : n = .even := by
        have h : (if (e :: es).length % 2 = 0 then none else some Count.even) = some n := h
        rw [if_neg hodd] at h
        exact (Option.some.inj h).symm
      rw [hcount]
      refine (congrArg (· >>= assignments operator) hsplit).trans ?_
      exact if_neg hodd

/-- Items that can be paired are taken as they are. -/
theorem assignments_of_paired (h : unpaired? items = none) :
    Clause.split operator (setClause :: later) (.keyword "set" :: items) =
        .ok [("set", items)] ∧
      assignments operator [("set", items)] = .ok (pairs items) := by
  have hsplit := Clause.split_first operator setClause hlater hitems
  obtain ⟨hne, heven⟩ := unpaired?_eq_none.mp h
  obtain ⟨e, es, rfl⟩ := List.exists_cons_of_ne_nil hne
  rw [check_set] at hsplit
  exact ⟨hsplit, if_pos heven⟩

end Items

/-! ## Statements -/

/-- The statements that take fields and values in turn. -/
inductive Kind where
  | insert
  | update
  deriving DecidableEq, Repr

namespace Kind

/-- The tag of a statement. -/
def tag : Kind → String
  | insert => "insert-into"
  | update => "update"

/-- The form of a statement. -/
def form : Kind → List Expr → Layout
  | insert => insertInto
  | update => Change.update

/-- The clauses that may come after the items. -/
def later : Kind → List Clause
  | insert => [⟨"returning", .optional, true⟩]
  | update => [⟨"from", .optional, true⟩, ⟨"where", .optional, false⟩, ⟨"returning", .optional, true⟩]

/-- A statement that sets items and has no other clause. -/
def statement (k : Kind) (table : Expr) (items : List Expr) : Expr :=
  .operation k.tag (table :: .keyword "set" :: items)

/-- What a statement lays out for pairs. -/
def layout (table : Expr) (ps : List (Expr × Expr)) : Kind → Layout
  | insert =>
      .text "INSERT INTO " :: .part table :: .text " (" ::
        (Layout.joined ", " (ps.map (·.1)) ++ .text ") VALUES (" ::
          (Layout.joined ", " (ps.map (·.2)) ++ [.text ")"]))
  | update =>
      .text "UPDATE " :: .part table :: .text " SET " ::
        Layout.separated ", " (ps.map assignment)

private theorem later_optional (k : Kind) : ∀ x ∈ k.later, x.presence.isRequired = false := by
  cases k <;> decide

/-- Items that are not in pairs are refused with their number. -/
theorem form_of_unpaired (k : Kind) (table : Expr) {items : List Expr}
    (hitems : ∀ x ∈ k.later, .keyword x.marker ∉ items) {n : Count}
    (h : unpaired? items = some n) :
    k.form (table :: .keyword "set" :: items) =
      .refuse (.arity (k.tag ++ " :set") n items.length) := by
  have hfault := assignments_of_unpaired k.tag k.later_optional hitems h
  cases k with
  | insert =>
      show Layout.ofExcept (insertRow table (.keyword "set" :: items)) = _
      exact congrArg Layout.ofExcept (bind_bind_eq_error hfault)
  | update => exact congrArg Layout.ofExcept (bind_bind_eq_error hfault)

/-- Items in pairs are written as the assignments they make, by either statement. -/
theorem form_of_paired (k : Kind) (table : Expr) {items : List Expr}
    (hitems : ∀ x ∈ k.later, .keyword x.marker ∉ items) (h : unpaired? items = none) :
    k.form (table :: .keyword "set" :: items) = k.layout table (pairs items) := by
  obtain ⟨hsplit, hpairs⟩ := assignments_of_paired k.tag k.later_optional hitems h
  cases k with
  | insert =>
      show Layout.ofExcept (insertRow table (.keyword "set" :: items)) = _
      refine congrArg Layout.ofExcept (bind_eq_ok.mpr ⟨_, hsplit, bind_eq_ok.mpr ⟨_, hpairs, ?_⟩⟩)
      rfl
  | update =>
      refine congrArg Layout.ofExcept (bind_eq_ok.mpr ⟨_, hsplit, bind_eq_ok.mpr ⟨_, hpairs, ?_⟩⟩)
      refine congrArg Except.ok ?_
      show .text "UPDATE " :: .part table :: .text " SET " ::
        (Layout.separated ", " ((pairs items).map assignment) ++ []) = _
      rw [List.append_nil]

/-- The statement is laid out by the form of its kind, in both registries. -/
theorem layoutOf_statement {r : Registry} (hr : r = .builtin ∨ r = Registry.builtin.strict)
    (k : Kind) (table : Expr) (items : List Expr) :
    r.layoutOf (k.statement table items) = k.form (table :: .keyword "set" :: items) := by
  show r.layout k.tag _ = _
  rw [Registry.layout_eq (Registry.declared_of_builtin hr).next?_eq_none,
    Registry.get?_eq_builtin hr, Registry.get?_builtin]
  cases k <;> rfl

end Kind

/-! ## What is written for pairs -/

section Pairs

variable {c : Compiler} {ps : List (Expr × Expr)} {gs : List (Fragments × Fragments)}

/-- Whether pairs of a field and a value are written, as the given pairs. -/
def Written (c : Compiler) (ps : List (Expr × Expr)) (gs : List (Fragments × Fragments)) : Prop :=
  List.Forall₂ (fun p g => c.write p.1 = .ok g.1 ∧ c.write p.2 = .ok g.2) ps gs

/-- The fields of assignments that are written are written in their order. -/
theorem Written.fields (h : Written c ps gs) :
    List.Forall₂ (fun e f => c.write e = .ok f) (ps.map (·.1)) (gs.map (·.1)) := by
  rw [List.forall₂_map_left_iff, List.forall₂_map_right_iff]
  exact h.imp fun _ _ hpg => hpg.1

/-- So are the values. -/
theorem Written.values (h : Written c ps gs) :
    List.Forall₂ (fun e f => c.write e = .ok f) (ps.map (·.2)) (gs.map (·.2)) := by
  rw [List.forall₂_map_left_iff, List.forall₂_map_right_iff]
  exact h.imp fun _ _ hpg => hpg.2

/-- Fields and values that are written apart are written in pairs. -/
theorem exists_written {fs vs : List Fragments}
    (hfs : List.Forall₂ (fun e f => c.write e = .ok f) (ps.map (·.1)) fs)
    (hvs : List.Forall₂ (fun e f => c.write e = .ok f) (ps.map (·.2)) vs) :
    ∃ gs, Written c ps gs ∧ fs = gs.map (·.1) ∧ vs = gs.map (·.2) := by
  induction ps generalizing fs vs with
  | nil =>
      cases hfs
      cases hvs
      exact ⟨[], .nil, rfl, rfl⟩
  | cons p ps ih =>
      cases hfs with
      | @cons _ f _ fs hf hfs =>
          cases hvs with
          | @cons _ v _ vs hv hvs =>
              obtain ⟨gs, hgs, rfl, rfl⟩ := ih hfs hvs
              exact ⟨(f, v) :: gs, .cons ⟨hf, hv⟩ hgs, rfl, rfl⟩

/-- What is written for a field with its new value. -/
def assigned (g : Fragments × Fragments) : Fragments :=
  .concat [g.1, .ofText " = ", g.2]

/-- An assignment writes its field, an equals sign and its value. -/
theorem writes_assignment {p : Expr × Expr} {f : Fragments} :
    (assignment p).Writes c f ↔
      ∃ g : Fragments × Fragments,
        (c.write p.1 = .ok g.1 ∧ c.write p.2 = .ok g.2) ∧ f = assigned g := by
  constructor
  · intro h
    obtain ⟨a, _, ha, hsign, rfl⟩ := Layout.writes_part.mp h
    obtain ⟨_, hvalue, rfl⟩ := Layout.writes_text.mp hsign
    obtain ⟨b, _, hb, hend, rfl⟩ := Layout.writes_part.mp hvalue
    obtain rfl := Layout.writes_nil.mp hend
    exact ⟨(a, b), ⟨ha, hb⟩, rfl⟩
  · rintro ⟨g, ⟨ha, hb⟩, rfl⟩
    exact .part ha (.text _ (.part hb (Layout.writes_nil.mpr rfl)))

/-- Assignments are written pair by pair. -/
theorem writes_assignments {fs : List Fragments} :
    List.Forall₂ (Layout.Writes c) (ps.map assignment) fs ↔
      ∃ gs, Written c ps gs ∧ fs = gs.map assigned := by
  rw [List.forall₂_map_left_iff]
  constructor
  · intro h
    induction h with
    | nil => exact ⟨[], .nil, rfl⟩
    | cons hp _ ih =>
        obtain ⟨g, hg, rfl⟩ := writes_assignment.mp hp
        obtain ⟨gs, hgs, rfl⟩ := ih
        exact ⟨g :: gs, .cons hg hgs, rfl⟩
  · rintro ⟨gs, hgs, rfl⟩
    rw [List.forall₂_map_right_iff]
    exact hgs.imp fun _ g hg => writes_assignment.mpr ⟨g, hg, rfl⟩

/-- What a statement writes for its table and its pairs. -/
def Kind.text (table : Fragments) (gs : List (Fragments × Fragments)) : Kind → Fragments
  | .insert =>
      .concat [.ofText "INSERT INTO ", table, .ofText " (", .join ", " (gs.map (·.1)),
        .ofText ") VALUES (", .join ", " (gs.map (·.2)), .ofText ")"]
  | .update => .concat [.ofText "UPDATE ", table, .ofText " SET ", .join ", " (gs.map assigned)]

/-- Both statements are written under the same condition: their table is, and their pairs are. -/
theorem Kind.writes_layout (k : Kind) {table : Expr} {f : Fragments} :
    (k.layout table ps).Writes c f ↔
      ∃ t gs, c.write table = .ok t ∧ Written c ps gs ∧ f = k.text t gs := by
  cases k with
  | insert =>
      constructor
      · intro h
        obtain ⟨_, htable, rfl⟩ := Layout.writes_text.mp h
        obtain ⟨t, _, ht, hopen, rfl⟩ := Layout.writes_part.mp htable
        obtain ⟨_, hlists, rfl⟩ := Layout.writes_text.mp hopen
        obtain ⟨_, _, hfields, hbetween, rfl⟩ := Layout.writes_append.mp hlists
        obtain ⟨_, hlist, rfl⟩ := Layout.writes_text.mp hbetween
        obtain ⟨_, _, hvalues, hclose, rfl⟩ := Layout.writes_append.mp hlist
        obtain ⟨fs, hfs, rfl⟩ := Layout.writes_joined.mp hfields
        obtain ⟨vs, hvs, rfl⟩ := Layout.writes_joined.mp hvalues
        obtain rfl := Layout.writes_single_text.mp hclose
        -- The two lists are as long as the pairs, so they come from one list.
        obtain ⟨gs, hgs, rfl, rfl⟩ := exists_written hfs hvs
        exact ⟨t, gs, ht, hgs, rfl⟩
      · rintro ⟨t, gs, ht, hgs, rfl⟩
        refine .text _ (.part ht (.text _ ?_))
        refine .append (Layout.writes_joined.mpr ⟨_, hgs.fields, rfl⟩) (.text _ ?_)
        refine .append (Layout.writes_joined.mpr ⟨_, hgs.values, rfl⟩) ?_
        exact Layout.writes_single_text.mpr rfl
  | update =>
      constructor
      · intro h
        obtain ⟨_, htable, rfl⟩ := Layout.writes_text.mp h
        obtain ⟨t, _, ht, hset, rfl⟩ := Layout.writes_part.mp htable
        obtain ⟨_, hlist, rfl⟩ := Layout.writes_text.mp hset
        obtain ⟨fs, hfs, rfl⟩ := Layout.writes_separated.mp hlist
        obtain ⟨gs, hgs, rfl⟩ := writes_assignments.mp hfs
        exact ⟨t, gs, ht, hgs, rfl⟩
      · rintro ⟨t, gs, ht, hgs, rfl⟩
        refine .text _ (.part ht (.text _ ?_))
        exact Layout.writes_separated.mpr ⟨_, writes_assignments.mpr ⟨gs, hgs, rfl⟩, rfl⟩

end Pairs

/-! ## Both statements on the same items -/

/-- Items of an even number are as many as their pairs, twice. -/
theorem length_eq_two_mul_length_pairs {items : List Expr} (h : items.length % 2 = 0) :
    items.length = 2 * (pairs items).length := by
  fun_induction pairs items with
  | case1 field value rest ih =>
      have hrest : rest.length % 2 = 0 := by simpa [Nat.add_assoc] using h
      simp only [List.length_cons]
      have := ih hrest
      omega
  | case2 items hitems =>
      rcases items with _ | ⟨x, _ | ⟨y, items⟩⟩
      · rfl
      · simp at h
      · exact absurd rfl (hitems x y items)

/-- A pair is made of two items in a row. -/
theorem getElem?_of_getElem?_pairs {items : List Expr} {i : Nat} {p : Expr × Expr}
    (h : (pairs items)[i]? = some p) :
    items[2 * i]? = some p.1 ∧ items[2 * i + 1]? = some p.2 := by
  fun_induction pairs items generalizing i with
  | case1 field value rest ih =>
      cases i with
      | zero =>
          cases h
          exact ⟨rfl, rfl⟩
      | succ i => exact ih h
  | case2 items hitems => simp at h

namespace Kind

variable {c : Compiler} (hr : c.registry = .builtin ∨ c.registry = Registry.builtin.strict)
  (k : Kind) {table : Expr} {items : List Expr}
  (hplain : ∀ marker ∈ ["from", "where", "returning"], .keyword marker ∉ items)

/-- The markers of later clauses are those of both statements. -/
theorem later_markers : ∀ x ∈ k.later, x.marker ∈ ["from", "where", "returning"] := by
  cases k <;> decide

include hr hplain

private theorem layoutOf_of_unpaired {n : Count} (h : unpaired? items = some n) :
    c.registry.layoutOf (k.statement table items) =
      .refuse (.arity (k.tag ++ " :set") n items.length) := by
  rw [layoutOf_statement hr]
  exact k.form_of_unpaired table (fun x hx => hplain _ (k.later_markers x hx)) h

/-- A statement is written when its items can be paired, and its table and its pairs are. -/
theorem write_eq_ok {f : Fragments} :
    c.write (k.statement table items) = .ok f ↔
      unpaired? items = none ∧
        ∃ t gs, c.write table = .ok t ∧ Written c (pairs items) gs ∧ f = k.text t gs := by
  cases h : unpaired? items with
  | none =>
      rw [Layout.write_eq_ok, layoutOf_statement hr,
        k.form_of_paired table (fun x hx => hplain _ (k.later_markers x hx)) h, k.writes_layout]
      exact (and_iff_right rfl).symm
  | some n =>
      rw [Layout.write_of_refuse (k.layoutOf_of_unpaired hr hplain h)]
      constructor
      · intro hwrite
        cases hwrite
      · rintro ⟨hpaired, -⟩
        cases hpaired

/-- Whether a statement is written does not depend on its kind. -/
theorem accepts_statement :
    c.Accepts (k.statement table items) ↔
      unpaired? items = none ∧ c.Accepts table ∧ ∃ gs, Written c (pairs items) gs := by
  constructor
  · rintro ⟨_, hwrite⟩
    obtain ⟨hpaired, t, gs, ht, hgs, -⟩ := (k.write_eq_ok hr hplain).mp hwrite
    exact ⟨hpaired, ⟨t, ht⟩, gs, hgs⟩
  · rintro ⟨hpaired, ⟨t, ht⟩, gs, hgs⟩
    exact ⟨_, (k.write_eq_ok hr hplain).mpr ⟨hpaired, t, gs, ht, hgs, rfl⟩⟩

end Kind

/-- **An insertion and an update pair alike.**  Of the same items both are written or none.  Items
    that are missing or left over are refused by their number, with nothing laid out to be written.
    What is written is told by one sequence for each field and one for each value: the insertion
    has them in two lists, the update has each field with its value. -/
theorem insert_and_update_pair_alike (c : Compiler)
    (hr : c.registry = .builtin ∨ c.registry = Registry.builtin.strict) (table : Expr)
    (items : List Expr)
    (hplain : ∀ marker ∈ ["from", "where", "returning"], .keyword marker ∉ items) :
    ((∃ f, c.write (Kind.insert.statement table items) = .ok f) ↔
      ∃ f, c.write (Kind.update.statement table items) = .ok f) ∧
    (∀ k : Kind, items = [] ∨ items.length % 2 = 1 →
      ∃ n, c.registry.layoutOf (k.statement table items) =
          .refuse (.arity (k.tag ++ " :set") n items.length) ∧
        c.write (k.statement table items) =
          .error (.arity (k.tag ++ " :set") n items.length)) ∧
    ((∃ f, c.write (Kind.insert.statement table items) = .ok f) →
      ∃ (n : Nat) (T : Fragments) (F V : Fin n → Fragments),
        items.length = 2 * n ∧ c.write table = .ok T ∧
        (∀ i : Fin n, ∃ field value,
          items[2 * i.val]? = some field ∧ items[2 * i.val + 1]? = some value ∧
            c.write field = .ok (F i) ∧ c.write value = .ok (V i)) ∧
        c.write (Kind.insert.statement table items) =
          .ok (.concat [.ofText "INSERT INTO ", T, .ofText " (", .join ", " (List.ofFn F),
            .ofText ") VALUES (", .join ", " (List.ofFn V), .ofText ")"]) ∧
        c.write (Kind.update.statement table items) =
          .ok (.concat [.ofText "UPDATE ", T, .ofText " SET ",
            .join ", " (List.ofFn fun i => .concat [F i, .ofText " = ", V i])])) := by
  refine ⟨?_, ?_, ?_⟩
  · -- The condition does not mention the kind.
    exact (Kind.insert.accepts_statement hr hplain).trans
      (Kind.update.accepts_statement hr hplain).symm
  · intro k hbad
    obtain ⟨n, hn⟩ : ∃ n, unpaired? items = some n := by
      refine Option.ne_none_iff_exists'.mp fun hpaired => ?_
      obtain ⟨hne, heven⟩ := unpaired?_eq_none.mp hpaired
      rcases hbad with hnil | hodd
      · exact hne hnil
      · omega
    have hrefuse := @Kind.layoutOf_of_unpaired c hr k table items hplain n hn
    exact ⟨n, hrefuse, Layout.write_of_refuse hrefuse⟩
  · rintro ⟨f, hf⟩
    obtain ⟨hpaired, t, gs, ht, hgs, rfl⟩ := (Kind.write_eq_ok hr _ hplain).mp hf
    have hlength : gs.length = (pairs items).length := hgs.length_eq.symm
    refine ⟨gs.length, t, fun i => (gs.get i).1, fun i => (gs.get i).2, ?_, ht, ?_, ?_, ?_⟩
    · rw [hlength]
      exact length_eq_two_mul_length_pairs (unpaired?_eq_none.mp hpaired).2
    · intro i
      have hi : i.val < (pairs items).length := hlength ▸ i.isLt
      obtain ⟨hfield, hvalue⟩ := List.Forall₂.get hgs hi i.isLt
      obtain ⟨hfst, hsnd⟩ := getElem?_of_getElem?_pairs (List.getElem?_eq_getElem hi)
      exact ⟨_, _, hfst, hsnd, hfield, hvalue⟩
    · have hfields := List.ofFn_getElem_eq_map gs (·.1)
      have hvalues := List.ofFn_getElem_eq_map gs (·.2)
      refine hf.trans ?_
      rw [Kind.text, ← hfields, ← hvalues]
      rfl
    · have hassigned := List.ofFn_getElem_eq_map gs assigned
      refine (Kind.update.write_eq_ok hr hplain).mpr ⟨hpaired, t, gs, ht, hgs, ?_⟩
      rw [Kind.text, ← hassigned]
      rfl

/-- The marker of the items is itself an item when it comes again, and is written as a name. -/
theorem insert_and_update_pair_alike_markerAgain :
    let c : Compiler := { registry := .builtin }
    let items : List Expr :=
      [.identifier "a", .keyword "set", .identifier "b", .identifier "d"]
    (∀ marker ∈ ["from", "where", "returning"], .keyword marker ∉ items) ∧
      (c.write (Kind.insert.statement (.identifier "t") items)).map Fragments.sql? =
        .ok (some "INSERT INTO t (a, b) VALUES (set, d)") ∧
      (c.write (Kind.update.statement (.identifier "t") items)).map Fragments.sql? =
        .ok (some "UPDATE t SET a = set, b = d") ∧
      ∀ k : Kind, ∃ n, c.write (k.statement (.identifier "t") (items.take 3)) =
        .error (.arity (k.tag ++ " :set") n 3) := by
  intro c items
  have hr : c.registry = .builtin ∨ c.registry = Registry.builtin.strict := .inl rfl
  have hplain : ∀ marker ∈ ["from", "where", "returning"], .keyword marker ∉ items := by
    simp [items]
  have hshort : ∀ marker ∈ ["from", "where", "returning"], .keyword marker ∉ items.take 3 := by
    simp [items]
  obtain ⟨-, -, hpaired⟩ :=
    insert_and_update_pair_alike c hr (.identifier "t") items hplain
  obtain ⟨-, hrefused, -⟩ :=
    insert_and_update_pair_alike c hr (.identifier "t") (items.take 3) hshort
  have haccepts : c.Accepts (Kind.insert.statement (.identifier "t") items) :=
    (Kind.insert.accepts_statement hr hplain).mpr
      ⟨unpaired?_eq_none.mpr ⟨List.cons_ne_nil _ _, by simp [items]⟩, Compiler.accepts_identifier "t",
        [(_, _), (_, _)],
        .cons ⟨Compiler.write_identifier "a", Compiler.write_keyword "set"⟩
          (.cons ⟨Compiler.write_identifier "b", Compiler.write_identifier "d"⟩ .nil)⟩
  obtain ⟨n, T, F, V, hn, hT, hitem, hinsert, hupdate⟩ := hpaired haccepts
  obtain rfl : n = 2 := by
    have hn : 4 = 2 * n := hn
    omega
  obtain ⟨_, _, hfield, hvalue, hF0, hV0⟩ := hitem 0
  cases hfield
  cases hvalue
  obtain ⟨_, _, hfield, hvalue, hF1, hV1⟩ := hitem 1
  cases hfield
  cases hvalue
  obtain ⟨ht, ha, hset, hb, hd⟩ : Name.write false "t" = "t" ∧ Name.write false "a" = "a" ∧
      Name.write false "set" = "set" ∧ Name.write false "b" = "b" ∧ Name.write false "d" = "d" := by
    decide +kernel
  have hT := Except.ok.inj ((Compiler.write_identifier "t").symm.trans hT)
  have hF0 := Except.ok.inj ((Compiler.write_identifier "a").symm.trans hF0)
  have hV0 := Except.ok.inj ((Compiler.write_keyword "set").symm.trans hV0)
  have hF1 := Except.ok.inj ((Compiler.write_identifier "b").symm.trans hF1)
  have hV1 := Except.ok.inj ((Compiler.write_identifier "d").symm.trans hV1)
  refine ⟨hplain, ?_, ?_, fun k => ?_⟩
  · rw [hinsert]
    simp only [List.ofFn_succ, List.ofFn_zero, Fin.succ_zero_eq_one]
    rw [← hT, ← hF0, ← hV0, ← hF1, ← hV1]
    simp only [c, ht, ha, hset, hb, hd]
    rfl
  · rw [hupdate]
    simp only [List.ofFn_succ, List.ofFn_zero, Fin.succ_zero_eq_one]
    rw [← hT, ← hF0, ← hV0, ← hF1, ← hV1]
    simp only [c, ht, ha, hset, hb, hd]
    rfl
  · obtain ⟨n, -, hwrite⟩ := hrefused k (.inr (by simp [items]))
    exact ⟨n, hwrite⟩

end Change
end SqlForms
