import SqlForms.Registry.Builtin

/-! # What a registered operator writes

    Most statements about trees hold of one operation at a time: whatever an
    operator writes is made of fixed text, faults and its operands, so a fact
    about a tree follows from the facts about the trees in its layout.

    * `Registry.Declared` collects the registries that are reached from the
      built-in one by registering operators of a class;
    * `Registry.layout_eq` reduces the layout of an operation to that of the
      one operator under its tag;
    * `Registry.induction` is the induction over a tree that follows its
      layouts;
    * `Registry.EveryForm` is a property of every built-in form;
    * `Layout.Sound` says that a layout holds texts, operands and faults of
      the operands only, as every built-in form does (`sound_forms`), and
      `Registry.chosen_not_mem_atoms` that no tree spells anything in a way
      of its own;
    * `Layout.Clean` says that nothing in a layout is a fault, which is so of
      every layout of a tree that can be written. -/

namespace SqlForms

namespace Registry

/-! ## Registries -/

/-- An operator is found under its tag, and the others under theirs. -/
theorem get?_insert (r : Registry) (tag t : String) (o : Operator) :
    (r.insert tag o).get? t = if tag = t then some o else r.get? t := by
  simp [get?, insert, Std.TreeMap.getElem?_insert]

/-- A strict registry has the same operators. -/
@[simp] theorem get?_strict (r : Registry) (t : String) : r.strict.get? t = r.get? t := rfl

/-- After a table was registered, the last row with a tag is found under it. -/
theorem get?_insertAll (r : Registry) (table : List (String × Operator)) (t : String) :
    (r.insertAll table).get? t = (table.reverse.lookup t).or (r.get? t) := by
  induction table generalizing r with
  | nil => rfl
  | cons row table ih =>
      show ((r.insert row.1 row.2).insertAll table).get? t = _
      have hrow : List.lookup t [row] = if row.1 = t then some row.2 else none := by
        obtain ⟨tag, o⟩ := row
        by_cases he : tag = t
        · rw [he, List.lookup_cons_self, if_pos rfl]
        · have hne : (t == tag) = false := by simpa using fun h => he h.symm
          rw [List.lookup_cons, hne, if_neg he]
          rfl
      rw [ih, get?_insert, List.reverse_cons, List.lookup_append, Option.or_assoc, hrow]
      split <;> rfl

/-- A built-in operator is the last row of its tag in the tables. -/
theorem get?_builtin (t : String) :
    builtin.get? t = (declarativeTable ++ customTable).reverse.lookup t := by
  rw [builtin, get?_insertAll]
  simp [get?, empty]

/-- What the built-in registry finds is in one of its tables. -/
theorem mem_of_get?_builtin {t : String} {o : Operator} (h : builtin.get? t = some o) :
    (t, o) ∈ declarativeTable ++ customTable := by
  rw [get?_builtin] at h
  obtain ⟨before, after, hmem, -⟩ := List.lookup_eq_some_iff.mp h
  rw [← List.mem_reverse, hmem]
  simp

/-- The registries reached from the empty and the built-in one by registering operators of a
    class, and by dropping function calls. -/
inductive Declared : Registry → Prop where
  | empty : Declared .empty
  | builtin : Declared .builtin
  | insert {r : Registry} {tag : String} {o : Operator} :
      Declared r → o.isDeclarative → Declared (r.insert tag o)
  | strict {r : Registry} : Declared r → Declared r.strict

/-- The built-in registry and its strict form find the same operators. -/
theorem get?_eq_builtin {r : Registry} (hr : r = builtin ∨ r = builtin.strict) :
    r.get? = builtin.get? := by
  rcases hr with rfl | rfl
  · rfl
  · rfl

/-- The built-in registry is declared, strict or not. -/
theorem declared_of_builtin {r : Registry} (hr : r = builtin ∨ r = builtin.strict) :
    r.Declared := by
  rcases hr with rfl | rfl
  · exact .builtin
  · exact .strict .builtin

/-- Every row of the declarative table is a declarative operator. -/
theorem isDeclarative_of_mem {row : String × Operator} (h : row ∈ declarativeTable) :
    row.2.isDeclarative := by
  have key : ∀ row ∈ declarativeTable, row.2.isDeclarative := by
    simp [declarativeTable, ofClass, Operator.isDeclarative]
  exact key row h

/-- An operator of such a registry belongs to a class or has one of the built-in forms. -/
theorem Declared.cases_get? {r : Registry} (hr : r.Declared) {t : String} {o : Operator}
    (h : r.get? t = some o) : o.isDeclarative ∨ (t, o) ∈ customTable := by
  induction hr with
  | empty => simp [get?, Registry.empty] at h
  | builtin =>
      rcases List.mem_append.mp (mem_of_get?_builtin h) with hm | hm
      · exact .inl (isDeclarative_of_mem hm)
      · exact .inr hm
  | @insert r tag o' _ ho ih =>
      rw [get?_insert] at h
      by_cases he : tag = t
      · rw [if_pos he] at h
        cases h
        exact .inl ho
      · rw [if_neg he] at h
        exact ih h
  | strict _ ih => exact ih h

/-- No operator of such a registry goes on with another one. -/
theorem Declared.next?_eq_none {r : Registry} (hr : r.Declared) {t : String} {o : Operator}
    (h : r.get? t = some o) : o.next? = none := by
  rcases hr.cases_get? h with ho | hm
  · cases o with
    | custom form => cases ho
    | continued form next => cases ho
    | _ => rfl
  · obtain ⟨row, -, heq⟩ := List.mem_map.mp hm
    cases heq
    rfl

/-! ## Operations -/

/-- Where no operator goes on with another one, an operation is written by its own operator. -/
theorem layout_eq {r : Registry} (hr : ∀ {t o}, r.get? t = some o → o.next? = none)
    (tag : String) (es : List Expr) :
    r.layout tag es =
      match r.get? tag with
      | none => r.unregistered tag es
      | some o => o.layout tag es := by
  rw [layout, layoutUpTo]
  cases h : r.get? tag with
  | none => rfl
  | some o => simp only [hr h]

/-- An operation is a call, a fault, or what one operator of a class or one built-in form
    writes. -/
theorem Declared.layout_cases {r : Registry} (hr : r.Declared) (tag : String) :
    (∀ es, r.layout tag es = r.unregistered tag es) ∨
      ∃ o, (∀ es, r.layout tag es = o.layout tag es) ∧
        (o.isDeclarative ∨ (tag, o) ∈ customTable) := by
  cases hg : r.get? tag with
  | none => exact .inl fun es => by rw [layout_eq hr.next?_eq_none, hg]
  | some o =>
      exact .inr ⟨o, fun es => by rw [layout_eq hr.next?_eq_none, hg], hr.cases_get? hg⟩

/-- A tree of a layout is reached from the items or the operands of the tree it belongs to. -/
theorem reach_of_part_mem {r : Registry} {e x : Expr} (h : .part x ∈ r.layoutOf e) :
    ∃ es, (e = .list es ∨ ∃ tag, e = .operation tag es) ∧ Reach es x := by
  cases e with
  | list items => exact ⟨items, .inl rfl, .operand (Layout.part_mem_parenthesized.mp h)⟩
  | operation tag es => exact ⟨es, .inr ⟨tag, rfl⟩, r.layoutUpTo_within _ tag es x h⟩
  | _ => simp [layoutOf] at h

/-- Induction over a tree that follows its layouts. -/
theorem induction (r : Registry) {P : Expr → Prop}
    (step : ∀ e, (∀ x, .part x ∈ r.layoutOf e → P x) → P e) (e : Expr) : P e :=
  step e fun x _ => r.induction step x
termination_by e
decreasing_by exact sizeOf_lt_of_part_mem (by assumption)

/-- An atom of a layout stands in it, or belongs to a tree that does. -/
theorem mem_atomsOf {r : Registry} {l : Layout} {a : Atom} :
    a ∈ r.atomsOf l ↔ .atom a ∈ l ∨ ∃ x, .part x ∈ l ∧ a ∈ r.atoms x := by
  rw [atomsOf, List.mem_flatMap]
  constructor
  · rintro ⟨p, hp, ha⟩
    cases p with
    | atom b => rw [List.mem_singleton.mp ha]; exact .inl hp
    | part x => exact .inr ⟨x, hp, ha⟩
  · rintro (h | ⟨x, hx, ha⟩)
    · exact ⟨_, h, List.mem_singleton_self a⟩
    · exact ⟨_, hx, ha⟩

@[simp] theorem atomsOf_nil (r : Registry) : r.atomsOf [] = [] := rfl

@[simp] theorem atomsOf_atom (r : Registry) (a : Atom) (l : Layout) :
    r.atomsOf (.atom a :: l) = a :: r.atomsOf l := rfl

@[simp] theorem atomsOf_part (r : Registry) (x : Expr) (l : Layout) :
    r.atomsOf (.part x :: l) = r.atoms x ++ r.atomsOf l := rfl

/-- Layouts one after the other have the atoms of both. -/
theorem atomsOf_append (r : Registry) (l l' : Layout) :
    r.atomsOf (l ++ l') = r.atomsOf l ++ r.atomsOf l' :=
  List.flatMap_append

end Registry

/-! ## Faults of operands -/

/-- Whether an error is about the operands of an operator: their number, their order, or what they
    define. -/
def Error.isStructural : Error → Bool
  | .arity _ _ _ => true
  | .malformed _ _ => true
  | .definition _ => true
  | _ => false

@[simp] private theorem Error.isStructural_arity (operator : String) (expected : Count) (n : Nat) :
    (Error.arity operator expected n).isStructural := rfl

@[simp] private theorem Error.isStructural_malformed (operator : String) (fault : FormFault) :
    (Error.malformed operator fault).isStructural := rfl

@[simp] private theorem Error.isStructural_definition (fault : DefinitionFault) :
    (Error.definition fault).isStructural := rfl

/-- Whether a step only fails over operands. -/
def Structural {α : Type} (x : Except Error α) : Prop :=
  ∀ e, x = .error e → e.isStructural

namespace Structural

variable {α β : Type}

/-- A result is no fault. -/
@[simp] theorem ok (a : α) : Structural (.ok a) := by
  intro e h
  cases h

@[simp] theorem error {e : Error} : Structural (.error e : Except Error α) ↔ e.isStructural := by
  simp [Structural]

/-- Steps whose faults are structural have structural faults in a row. -/
theorem bind {x : Except Error α} {f : α → Except Error β} (hx : Structural x)
    (hf : ∀ a, Structural (f a)) : Structural (x >>= f) := by
  intro e h
  rcases bind_eq_error.mp h with h | ⟨a, -, h⟩
  · exact hx e h
  · exact hf a e h

/-- A function adds no fault. -/
theorem map {x : Except Error α} (hx : Structural x) (f : α → β) : Structural (x.map f) :=
  fun e h => hx e (map_eq_error.mp h)

/-- Neither does a step for each item of a list. -/
theorem mapM {f : α → Except Error β} (hf : ∀ a, Structural (f a)) (as : List α) :
    Structural (as.mapM f) := by
  induction as with
  | nil => exact ok []
  | cons a as ih =>
      rw [List.mapM_cons]
      exact (hf a).bind fun b => ih.bind fun bs => ok (b :: bs)

end Structural

/-! ## Texts, faults and operands -/

/-- Whether a piece is a text, a fault or an operand. -/
def Piece.isSimple : Piece → Bool
  | .atom (.text _) => true
  | .atom (.refuse _) => true
  | .part _ => true
  | _ => false

/-- Whether a piece is a text, a fault of operands or an operand. -/
def Piece.isSound : Piece → Bool
  | .atom (.text _) => true
  | .atom (.refuse x) => x.isStructural
  | .part _ => true
  | _ => false

/-- A sound piece is simple. -/
theorem Piece.isSimple_of_isSound {p : Piece} (h : p.isSound) : p.isSimple := by
  cases p with
  | part e => rfl
  | atom a =>
      cases a with
      | text s => rfl
      | refuse x => rfl
      | _ => cases h

namespace Layout

/-- Whether a layout holds texts, faults and operands only. -/
def Simple (l : Layout) : Prop :=
  ∀ p ∈ l, p.isSimple

/-- Whether a layout holds texts, faults of operands and operands only. -/
def Sound (l : Layout) : Prop :=
  ∀ p ∈ l, p.isSound

/-- A sound layout is simple. -/
theorem Sound.simple {l : Layout} (h : Sound l) : Simple l :=
  fun p hp => Piece.isSimple_of_isSound (h p hp)

@[simp] private theorem sound_nil : Sound [] := by
  simp [Sound]

/-- A layout is sound piece by piece. -/
@[simp] theorem sound_cons {p : Piece} {l : Layout} :
    Sound (p :: l) ↔ p.isSound ∧ Sound l := by
  simp [Sound]

/-- Layouts are sound together when each of them is. -/
@[simp] theorem sound_append {l l' : Layout} : Sound (l ++ l') ↔ Sound l ∧ Sound l' := by
  simp [Sound, or_imp, forall_and]

@[simp] private theorem isSound_text (s : String) : (Piece.text s).isSound := rfl

@[simp] private theorem isSound_refuse (x : Error) :
    (Piece.refuse x).isSound = x.isStructural := rfl

@[simp] private theorem isSound_part (e : Expr) : (Piece.part e).isSound := rfl

private theorem isSound_ofExcept {x : Except Error String} (h : Structural x) :
    (Piece.ofExcept x).isSound := by
  cases x with
  | ok s => rfl
  | error e => exact h e rfl

@[simp] private theorem sound_refuse {x : Error} : Sound (refuse x) ↔ x.isStructural := by
  simp [refuse]

@[simp] private theorem sound_arity (operator : String) (c : Count) (es : List Expr) :
    Sound (arity operator c es) :=
  sound_refuse.mpr rfl

@[simp] private theorem sound_joined (separator : String) (es : List Expr) :
    Sound (joined separator es) := by
  fun_induction joined separator es <;> simp_all

@[simp] private theorem sound_separated {separator : String} {ls : List Layout} :
    Sound (separated separator ls) ↔ ∀ l ∈ ls, Sound l := by
  fun_induction separated separator ls <;> simp_all

@[simp] private theorem sound_leading (lead : String) (o : Option Expr) :
    Sound (leading lead o) := by
  cases o <;> simp [leading]

@[simp] private theorem sound_leadingAll (lead : String) (o : Option (List Expr)) :
    Sound (leadingAll lead o) := by
  cases o <;> simp [leadingAll]

@[simp] private theorem sound_concat {ls : List Layout} :
    Sound (concat ls) ↔ ∀ l ∈ ls, Sound l := by
  induction ls with
  | nil => simp [concat]
  | cons l ls ih =>
      show Sound (l ++ concat ls) ↔ _
      rw [sound_append, ih, List.forall_mem_cons]

@[simp] private theorem sound_parenthesized (es : List Expr) : Sound (parenthesized es) := by
  cases es <;> simp [parenthesized]

/-- A layout that may fail is sound when its faults are structural and its results sound. -/
theorem sound_ofExcept {x : Except Error Layout} (hx : Structural x)
    (h : ∀ l, x = .ok l → Sound l) : Sound (ofExcept x) := by
  cases x with
  | ok l => exact h l rfl
  | error e => exact sound_refuse.mpr (hx e rfl)

end Layout

/-! ## Layouts without faults -/

namespace Layout

/-- Whether nothing in a layout is a fault. -/
def Clean (l : Layout) : Prop :=
  ∀ x, Piece.refuse x ∉ l

@[simp] private theorem clean_nil : Clean [] := by
  simp [Clean]

/-- A text is no fault. -/
@[simp] theorem clean_text {s : String} {l : Layout} : Clean (.text s :: l) ↔ Clean l := by
  simp [Clean]

/-- A tree is no fault. -/
@[simp] theorem clean_part {e : Expr} {l : Layout} : Clean (.part e :: l) ↔ Clean l := by
  simp [Clean]

/-- Layouts are clean together when each of them is. -/
@[simp] theorem clean_append {l l' : Layout} : Clean (l ++ l') ↔ Clean l ∧ Clean l' := by
  simp [Clean, forall_and]

/-- A text that may fail is clean when it did not. -/
@[simp] theorem clean_ofExcept_cons {x : Except Error String} {l : Layout} :
    Clean (.ofExcept x :: l) ↔ (∃ s, x = .ok s) ∧ Clean l := by
  cases x with
  | ok s => simp [Piece.ofExcept]
  | error e =>
      constructor
      · intro h
        exact absurd List.mem_cons_self (h e)
      · rintro ⟨⟨s, hs⟩, -⟩
        cases hs

@[simp] private theorem not_clean_refuse (x : Error) : ¬ Clean (refuse x) := by
  simp [Clean, refuse]

@[simp] private theorem not_clean_arity (operator : String) (c : Count) (es : List Expr) :
    ¬ Clean (arity operator c es) :=
  not_clean_refuse _

@[simp] private theorem clean_joined (separator : String) (es : List Expr) :
    Clean (joined separator es) := by
  fun_induction joined separator es <;> simp_all

/-- Layouts in a row are clean when each of them is. -/
@[simp] theorem clean_separated {separator : String} {ls : List Layout} :
    Clean (separated separator ls) ↔ ∀ l ∈ ls, Clean l := by
  fun_induction separated separator ls <;> simp_all

@[simp] private theorem clean_leading (lead : String) (o : Option Expr) :
    Clean (leading lead o) := by
  cases o <;> simp [leading]

@[simp] private theorem clean_leadingAll (lead : String) (o : Option (List Expr)) :
    Clean (leadingAll lead o) := by
  cases o <;> simp [leadingAll]

/-- Layouts one after the other are clean when each of them is. -/
@[simp] theorem clean_concat {ls : List Layout} : Clean (concat ls) ↔ ∀ l ∈ ls, Clean l := by
  induction ls with
  | nil => simp [concat]
  | cons l ls ih =>
      show Clean (l ++ concat ls) ↔ _
      rw [clean_append, ih, List.forall_mem_cons]

/-- A layout that may fail is clean when it did not and its result is clean. -/
@[simp] theorem clean_ofExcept {x : Except Error Layout} :
    Clean (ofExcept x) ↔ ∃ l, x = .ok l ∧ Clean l := by
  cases x with
  | ok l => simp [ofExcept]
  | error e => simp [ofExcept]

end Layout

/-! ## The built-in forms -/

namespace Registry

/-- Whether a text is made of capitals and blanks, at least one. -/
def isWords (s : String) : Bool :=
  !s.toList.isEmpty && s.toList.all fun c => c.isUpper || c == ' '

/-- A property of every built-in form and its tag; where forms only differ by their words, for
    all words. -/
structure EveryForm (P : String → (List Expr → Layout) → Prop) : Prop where
  membership : ∀ tag sql, isWords sql → P tag (Predicate.membership tag sql)
  set : P "set" Predicate.set
  renamed : P "as" Predicate.renamed
  exists_ : P "exists" Predicate.exists_
  between : P "between" Predicate.between
  case : P "case" Predicate.case
  raw : P "raw" Predicate.raw
  dot : P "dot" Predicate.dot
  cast : ∀ tag, P tag (Predicate.cast tag)
  suffixed : ∀ tag sql, isWords sql → P tag (Predicate.suffixed tag sql)
  select : P "select" Query.select
  limit : P "limit" Query.limit
  offset : P "offset" Query.offset
  orderBy : P "order-by" Query.orderBy
  insertInto : P "insert-into" Change.insertInto
  update : P "update" Change.update
  deleteFrom : P "delete-from" Change.deleteFrom
  createTable : P "create-table" Table.createTable
  createIndex : ∀ tag sql, isWords sql → P tag (Schema.createIndex tag sql)
  createSequence : P "create-sequence" Schema.createSequence
  drop : ∀ tag kind, isWords kind → P tag (Schema.drop tag kind)
  createFunction : P "create-function" Function.createFunction

/-- A property of every built-in form is one of every operator that has a form of its own. -/
theorem EveryForm.of_mem {P : String → (List Expr → Layout) → Prop} (hP : EveryForm P)
    {tag : String} {o : Operator} (h : (tag, o) ∈ customTable) : P tag (o.layout tag) := by
  obtain ⟨row, hrow, heq⟩ := List.mem_map.mp h
  cases heq
  simp only [predicateForms, statementForms, schemaForms, List.cons_append, List.nil_append,
    List.mem_cons, List.not_mem_nil, or_false] at hrow
  rcases hrow with rfl | rfl | rfl | rfl | rfl | rfl | rfl | rfl | rfl | rfl | rfl | rfl | rfl |
    rfl | rfl | rfl | rfl | rfl | rfl | rfl | rfl | rfl | rfl | rfl | rfl | rfl | rfl | rfl |
    rfl | rfl
  -- One case for each row, in the order of the three tables.
  · exact hP.membership _ _ (by decide)
  · exact hP.membership _ _ (by decide)
  · exact hP.set
  · exact hP.renamed
  · exact hP.exists_
  · exact hP.between
  · exact hP.case
  · exact hP.raw
  · exact hP.dot
  · exact hP.cast _
  · exact hP.cast _
  · exact hP.suffixed _ _ (by decide)
  · exact hP.suffixed _ _ (by decide)
  · exact hP.suffixed _ _ (by decide)
  · exact hP.suffixed _ _ (by decide)
  · exact hP.select
  · exact hP.limit
  · exact hP.offset
  · exact hP.orderBy
  · exact hP.insertInto
  · exact hP.update
  · exact hP.deleteFrom
  · exact hP.createTable
  · exact hP.createIndex _ _ (by decide)
  · exact hP.createIndex _ _ (by decide)
  · exact hP.createSequence
  · exact hP.drop _ _ (by decide)
  · exact hP.drop _ _ (by decide)
  · exact hP.drop _ _ (by decide)
  · exact hP.createFunction

end Registry

/-! ## How clauses and types fail -/

namespace Clause

variable (operator : String)

/-- Binding a clause has structural faults, if what follows has. -/
theorem take_structural (c : Clause) (later : List Clause) (body : List Expr)
    {next : List Expr → Except Error Bound} (hn : ∀ es, Structural (next es)) :
    Structural (c.take operator later body next) := by
  have hcheck : Structural (c.check operator (content later body)) := by
    unfold check
    split <;> simp
  exact hcheck.bind fun _ => (hn _).bind fun rest => .ok _

/-- Reading clauses has structural faults. -/
theorem readFrom_structural (clauses : List Clause) (es : List Expr) :
    Structural (readFrom operator clauses es) := by
  induction clauses generalizing es with
  | nil => cases es <;> simp [readFrom]
  | cons c later ih =>
      rw [readFrom]
      split
      · exact take_structural operator c later _ ih
      · split
        · simp
        · exact ih es

/-- Splitting operands into clauses has structural faults. -/
theorem split_structural (clauses : List Clause) (es : List Expr) :
    Structural (split operator clauses es) := by
  unfold split
  split
  · exact readFrom_structural operator clauses []
  · split
    · exact readFrom_structural operator clauses _
    · simp

/-- So it has with operands before the first clause. -/
theorem splitLeading_structural (clauses : List Clause) (es : List Expr) :
    Structural (splitLeading operator clauses es) := by
  unfold splitLeading
  split
  · exact readFrom_structural operator [] es
  · exact take_structural operator _ _ es (readFrom_structural operator _)

end Clause

/-- Reading a type has structural faults. -/
theorem TypeName.ofExpr_structural (type : Expr) : Structural (TypeName.ofExpr type) := by
  have parameter : ∀ e, Structural (TypeName.parameter e) := by
    intro e
    have amount : ∀ n, Structural (parameterOfInt n) := by
      intro n
      unfold parameterOfInt
      split <;> simp
    unfold TypeName.parameter
    split
    · exact amount _
    · exact amount _
    · simp
  have write : ∀ name parameters, Structural (TypeName.write name parameters) := by
    intro name parameters
    unfold TypeName.write
    split
    · simp
    · split
      · split <;> simp
      · simp
  unfold TypeName.ofExpr
  split
  · exact write _ []
  · exact write _ []
  · exact (Structural.mapM parameter _).bind fun _ => write _ _
  · simp

/-! ## What the forms are made of -/

open Layout (Sound)

/-- A declarative operator has sound layouts. -/
theorem Operator.layout_sound (tag : String) {o : Operator} (ho : o.isDeclarative)
    (es : List Expr) : Sound (o.layout tag es) := by
  cases o with
  | unary sql => simp only [layout]; split <;> simp [before]
  | trailing sql => simp only [layout]; split <;> simp
  | nary sql => simp only [layout]; split <;> simp [amid]
  | twoOrMore sql => simp only [layout]; split <;> simp [amid]
  | naryOrUnary sql => simp only [layout]; split <;> simp [before, amid]
  | custom form => cases ho
  | continued form next => cases ho

/-- The text of a type is a text or a fault of its descriptor. -/
@[simp] theorem TypeName.isSound_ofExpr (type : Expr) :
    (Piece.ofExcept (TypeName.ofExpr type)).isSound :=
  Layout.isSound_ofExcept (TypeName.ofExpr_structural type)

/-- A case distinction is sound. -/
theorem Predicate.case_sound (es : List Expr) : Sound (Predicate.case es) := by
  have clauses : ∀ es, Sound (caseClauses es) := by
    intro es
    induction es with
    | nil => simp [caseClauses]
    | cons e es ih =>
        rw [caseClauses, Layout.sound_append]
        refine ⟨?_, ih⟩
        unfold caseClause
        split
        · split
          · split <;> simp
          · simp
        · simp
  unfold Predicate.case
  split
  · simp
  · simp [clauses]

/-- A from list is sound. -/
theorem From.layout_sound (operator : String) (es : List Expr) :
    Sound (From.layout operator es) := by
  have items : ∀ first es, Sound (From.items operator first es) := by
    intro first es
    fun_induction From.items operator first es <;> simp_all
  unfold From.layout
  split
  · simp
  · split
    · exact items true _
    · simp

private theorem Query.fromLayout_sound (operator : String) (b : Bound) :
    Sound (Query.fromLayout operator b) := by
  unfold Query.fromLayout
  split
  · simp [From.layout_sound]
  · simp

@[simp] private theorem Query.whereLayout_sound (b : Bound) : Sound (Query.whereLayout b) :=
  Layout.sound_leading _ _

@[simp] private theorem Query.returningLayout_sound (b : Bound) : Sound (Query.returningLayout b) :=
  Layout.sound_leadingAll _ _

/-- A selection is sound. -/
theorem Query.select_sound (es : List Expr) : Sound (Query.select es) := by
  have distinct : ∀ b, Sound (Query.distinctLayout b) := by
    intro b
    simp only [Query.distinctLayout, Layout.sound_concat, List.forall_mem_cons]
    refine ⟨by split <;> simp, ?_, by simp⟩
    split <;> simp
  refine Layout.sound_ofExcept ?_ fun l hl => ?_
  · refine (Clause.splitLeading_structural _ _ es).bind fun b => ?_
    split <;> simp
  obtain ⟨b, -, hl⟩ := bind_eq_ok.mp hl
  split at hl
  · cases hl
  · cases hl
    simp [Query.selectLayout, distinct, Query.fromLayout_sound]

/-- Reading assignments has structural faults. -/
theorem Change.assignments_structural (operator : String) (b : Bound) :
    Structural (Change.assignments operator b) := by
  simp only [Change.assignments]
  split <;> simp

/-- An insertion is sound. -/
theorem Change.insertInto_sound (es : List Expr) : Sound (Change.insertInto es) := by
  unfold Change.insertInto
  split
  · simp
  · simp
  · split
    · refine Layout.sound_ofExcept ?_ fun l hl => ?_
      · refine (Clause.split_structural _ _ _).bind fun b => ?_
        exact (Change.assignments_structural _ b).bind fun _ => .ok _
      obtain ⟨b, -, hl⟩ := bind_eq_ok.mp hl
      obtain ⟨ps, -, hl⟩ := bind_eq_ok.mp hl
      cases hl
      simp
    · refine Layout.sound_ofExcept ?_ fun l hl => ?_
      · exact (Clause.split_structural _ _ _).bind fun _ => .ok _
      obtain ⟨b, -, hl⟩ := bind_eq_ok.mp hl
      cases hl
      simp

/-- An update is sound. -/
theorem Change.update_sound (es : List Expr) : Sound (Change.update es) := by
  unfold Change.update
  split
  · simp
  · refine Layout.sound_ofExcept ?_ fun l hl => ?_
    · refine (Clause.split_structural _ _ _).bind fun b => ?_
      exact (Change.assignments_structural _ b).bind fun _ => .ok _
    obtain ⟨b, -, hl⟩ := bind_eq_ok.mp hl
    obtain ⟨ps, -, hl⟩ := bind_eq_ok.mp hl
    cases hl
    have set : Sound (.separated ", " (ps.map Change.assignment)) := by
      rw [Layout.sound_separated, List.forall_mem_map]
      simp [Change.assignment]
    simp [-Layout.sound_separated, set, Query.fromLayout_sound]

/-- A deletion is sound. -/
theorem Change.deleteFrom_sound (es : List Expr) : Sound (Change.deleteFrom es) := by
  unfold Change.deleteFrom
  split
  · simp
  · refine Layout.sound_ofExcept ?_ fun l hl => ?_
    · exact (Clause.split_structural _ _ _).bind fun _ => .ok _
    obtain ⟨b, -, hl⟩ := bind_eq_ok.mp hl
    cases hl
    simp

/-- A reference is sound. -/
theorem Table.reference_sound (owner : Owner) (target : Expr) (actions : List Expr) :
    Sound (Table.reference owner target actions) := by
  have action : ∀ e, Structural (ReferentialAction.ofExpr e) := by
    intro e
    unfold ReferentialAction.ofExpr
    split <;> simp
  have htarget : Structural (referenceTarget owner target) := by
    unfold referenceTarget
    split <;> simp
  have hactions : Structural (referenceActions owner actions) := by
    unfold referenceActions
    split
    · simp
    · exact (action _).bind fun _ => .ok _
    · exact (action _).bind fun _ => (action _).bind fun _ => .ok _
    · simp
  refine Layout.sound_ofExcept ?_ fun l hl => ?_
  · exact htarget.bind fun _ => hactions.bind fun _ => .ok _
  obtain ⟨⟨table, columns⟩, -, hl⟩ := bind_eq_ok.mp hl
  obtain ⟨⟨onDelete, onUpdate⟩, -, hl⟩ := bind_eq_ok.mp hl
  cases hl
  cases columns <;> simp

/-- Reading the options of a column has structural faults. -/
theorem Table.options_structural (owner : Owner) (items : List Expr) :
    Structural (Table.options owner items) := by
  -- Options come in pairs, so the induction is on how many items are left.
  have read : ∀ n seen items, items.length ≤ n → Structural (readOptions owner seen items) := by
    intro n
    induction n with
    | zero =>
        intro seen items hlen
        rw [readOptions_short (by omega)]
        exact .ok _
    | succ n ih =>
        intro seen items hlen
        rcases items with _ | ⟨key, _ | ⟨value, rest⟩⟩
        · exact .ok _
        · exact .ok _
        · rw [readOptions]
          split
          · simp
          · split
            · simp
            · refine (ih _ rest ?_).bind fun _ => .ok _
              simp only [List.length_cons] at hlen
              omega
  unfold options
  split
  · exact read _ [] items (Nat.le_refl _)
  · simp

/-- A column is sound. -/
theorem Table.column_sound (c : Expr) : Sound (Table.column c) := by
  have option : ∀ owner key value, Sound (Table.option owner key value) := by
    intro owner key value
    unfold Table.option
    split
    · simp
    · simp
    · split <;> simp
    · split <;> simp
    · simp
    · split <;> simp [Table.reference_sound]
    · simp
  unfold Table.column
  split
  · refine Layout.sound_ofExcept ?_ fun l hl => ?_
    · refine (Table.options_structural _ _).bind fun given => ?_
      split <;> simp
    obtain ⟨given, -, hl⟩ := bind_eq_ok.mp hl
    split at hl
    · cases hl
      simp only [Table.columnLayout, Layout.sound_concat, List.forall_mem_cons]
      refine ⟨by simp, by split <;> simp, ?_, by simp⟩
      rw [List.forall_mem_map]
      exact fun o _ => option _ o.1 o.2
    · cases hl
  · simp

/-- A constraint of a table is sound. -/
theorem Table.tableConstraint_sound (c : Expr) : Sound (Table.tableConstraint c) := by
  have constraint : ∀ es, Sound (Table.constraint es) := by
    intro es
    fun_induction Table.constraint es <;> simp_all [Table.reference_sound]
  unfold Table.tableConstraint
  split
  · exact constraint _
  · simp

/-- The definition of a table is sound. -/
theorem Table.createTable_sound (es : List Expr) : Sound (Table.createTable es) := by
  unfold Table.createTable
  split
  · simp [Table.column_sound, Table.tableConstraint_sound, or_imp, forall_and]
  · simp
  · simp
  · simp

/-- The definition of an index is sound. -/
theorem Schema.createIndex_sound (tag sql : String) (es : List Expr) :
    Sound (Schema.createIndex tag sql es) := by
  unfold Schema.createIndex
  split
  · simp
  · refine Layout.sound_ofExcept ((Clause.split_structural _ _ _).map _) fun l hl => ?_
    obtain ⟨b, -, hl⟩ := map_eq_ok.mp hl
    subst hl
    simp [Schema.indexLayout]

/-- The definition of a sequence is sound. -/
theorem Schema.createSequence_sound (es : List Expr) : Sound (Schema.createSequence es) := by
  unfold Schema.createSequence
  split
  · simp
  · refine Layout.sound_ofExcept ((Clause.split_structural _ _ _).map _) fun l hl => ?_
    obtain ⟨b, -, hl⟩ := map_eq_ok.mp hl
    subst hl
    by_cases hc : b.has "cycle" <;> simp [Schema.sequenceLayout, hc]

/-- A removal is sound. -/
theorem Schema.drop_sound (tag kind : String) (es : List Expr) :
    Sound (Schema.drop tag kind es) := by
  simp only [Schema.drop]
  split
  · simp only [Layout.sound_concat, List.forall_mem_cons]
    exact ⟨by simp, by split <;> simp, by simp, by split <;> simp, by simp⟩
  · simp

/-- The definition of a function is sound. -/
theorem Function.createFunction_sound (es : List Expr) : Sound (Function.createFunction es) := by
  unfold Function.createFunction
  split
  next name arguments returns stable body =>
    have hbody : Structural (bodyText body) := by
      unfold bodyText
      split <;> simp
    have hstable : Structural (stability stable) := by
      unfold stability
      split <;> simp
    refine Layout.sound_ofExcept ?_ fun l hl => ?_
    · refine hbody.bind fun _ => hstable.bind fun _ => ?_
      exact (Structural.mapM TypeName.ofExpr_structural arguments).bind fun _ => .ok _
    obtain ⟨body, -, hl⟩ := bind_eq_ok.mp hl
    obtain ⟨stable, -, hl⟩ := bind_eq_ok.mp hl
    obtain ⟨types, -, hl⟩ := bind_eq_ok.mp hl
    cases hl
    simp
  · simp
  · simp

/-- A built-in form holds texts, faults of its operands and operands only. -/
theorem Registry.sound_forms : EveryForm fun _ layout => ∀ es, Sound (layout es) where
  membership tag sql _ es := by simp only [Predicate.membership]; split <;> simp
  set es := by simp [Predicate.set]
  renamed es := by simp only [Predicate.renamed]; split <;> simp
  exists_ es := by simp only [Predicate.exists_]; split <;> simp
  between es := by simp only [Predicate.between]; split <;> simp
  case := Predicate.case_sound
  raw es := by
    simp only [Predicate.raw]
    split
    · split <;> simp
    · simp
  dot es := by simp only [Predicate.dot]; split <;> simp
  cast tag es := by simp only [Predicate.cast]; split <;> simp
  suffixed tag sql _ es := by simp only [Predicate.suffixed]; split <;> simp
  select := Query.select_sound
  limit es := by simp only [Query.limit]; split <;> simp
  offset es := by simp only [Query.offset]; split <;> simp
  orderBy es := by simp only [Query.orderBy]; split <;> simp
  insertInto := Change.insertInto_sound
  update := Change.update_sound
  deleteFrom := Change.deleteFrom_sound
  createTable := Table.createTable_sound
  createIndex tag sql _ := Schema.createIndex_sound tag sql
  createSequence := Schema.createSequence_sound
  drop tag kind _ := Schema.drop_sound tag kind
  createFunction := Function.createFunction_sound

namespace Registry

/-- A call is the name of the function and its arguments. -/
theorem call_eq (tag : String) (es : List Expr) :
    ∃ l, call tag es = .atom (.name tag) :: l ∧ Sound l :=
  ⟨Layout.concat [[.text "("], .joined ", " es, [.text ")"]], rfl, by simp⟩

/-- A tree is spelled as one atom, or is an operation that is not registered, or is laid out as
    texts, faults of its operands and operands. -/
theorem Declared.sound_layoutOf {r : Registry} (hr : r.Declared) {e : Expr} :
    (∃ a, r.layoutOf e = [.atom a] ∧
        ((∃ n, a = .name n) ∨ (∃ v, a = .literal v) ∨ ∃ p, e = .placeholder p ∧ a = .slot p)) ∨
      (∃ tag es, e = .operation tag es ∧ r.get? tag = none ∧
        r.layoutOf e = r.unregistered tag es) ∨
      Sound (r.layoutOf e) := by
  cases e with
  | literal v => exact .inl ⟨_, rfl, .inr (.inl ⟨v, rfl⟩)⟩
  | quoted v => exact .inl ⟨_, rfl, .inr (.inl ⟨v, rfl⟩)⟩
  | identifier n => exact .inl ⟨_, rfl, .inl ⟨n, rfl⟩⟩
  | keyword n => exact .inl ⟨_, rfl, .inl ⟨n, rfl⟩⟩
  | placeholder p => exact .inl ⟨_, rfl, .inr (.inr ⟨p, rfl, rfl⟩)⟩
  | list items => exact .inr (.inr (Layout.sound_parenthesized items))
  | operation tag es =>
      refine .inr ?_
      rw [layoutOf, layout_eq hr.next?_eq_none]
      cases hg : r.get? tag with
      | none => exact .inl ⟨tag, es, rfl, hg, rfl⟩
      | some o =>
          refine .inr ?_
          rcases hr.cases_get? hg with ho | hm
          · exact Operator.layout_sound tag ho es
          · exact sound_forms.of_mem hm es

/-- An atom of the layout of a tree is a text or a fault, or spells the tree itself. -/
theorem Declared.atom_mem_layoutOf {r : Registry} (hr : r.Declared) {e : Expr} {a : Atom}
    (h : .atom a ∈ r.layoutOf e) :
    (Piece.atom a).isSimple ∨ (∃ n, a = .name n) ∨ (∃ v, a = .literal v) ∨
      ∃ p, e = .placeholder p ∧ a = .slot p := by
  rcases hr.sound_layoutOf (e := e) with ⟨b, hl, hb⟩ | ⟨tag, es, rfl, -, hl⟩ | hs
  · rw [hl, List.mem_singleton] at h
    cases h
    exact .inr hb
  · rw [hl, unregistered] at h
    split at h
    · obtain ⟨l, hc, hrest⟩ := call_eq tag es
      rw [hc] at h
      rcases List.mem_cons.mp h with h | h
      · exact .inr (.inl ⟨tag, Piece.atom.inj h⟩)
      · exact .inl (hrest.simple _ h)
    · rw [Layout.refuse, List.mem_singleton] at h
      rw [h]
      exact .inl rfl
  · exact .inl (hs.simple _ h)

/-- A fault in the layout of a tree is one of its operands, unless the tree is an operation that is
    not registered and may not be a call. -/
theorem Declared.refuse_mem_layoutOf {r : Registry} (hr : r.Declared) {e : Expr} {x : Error}
    (h : Piece.refuse x ∈ r.layoutOf e) :
    x.isStructural ∨ ∃ tag es, e = .operation tag es ∧ r.get? tag = none ∧
      r.fallback = false ∧ x = .unknownOperator tag := by
  rcases hr.sound_layoutOf (e := e) with ⟨b, hl, hb⟩ | ⟨tag, es, rfl, hg, hl⟩ | hs
  · rw [hl, List.mem_singleton] at h
    cases h
    rcases hb with ⟨n, hb⟩ | ⟨v, hb⟩ | ⟨p, -, hb⟩ <;> cases hb
  · rw [hl, unregistered] at h
    split at h
    · obtain ⟨l, hc, hrest⟩ := call_eq tag es
      rw [hc] at h
      rcases List.mem_cons.mp h with h | h
      · cases h
      · exact .inl (hrest _ h)
    next hf =>
      rw [Layout.refuse, List.mem_singleton] at h
      cases h
      exact .inr ⟨tag, es, rfl, hg, by simpa using hf, rfl⟩
  · exact .inl (hs _ h)

/-- No tree spells anything in a way that depends on how the statement is written. -/
theorem chosen_not_mem_atoms {r : Registry} (hr : r.Declared) (f : Config → Mode → String)
    (e : Expr) : .chosen f ∉ r.atoms e := by
  induction e using r.induction with
  | step e ih =>
      rw [atoms_eq, mem_atomsOf]
      rintro (h | ⟨x, hx, ha⟩)
      · rcases hr.atom_mem_layoutOf h with h | ⟨n, h⟩ | ⟨v, h⟩ | ⟨p, -, h⟩ <;> cases h
      · exact ih x hx ha

end Registry
end SqlForms
