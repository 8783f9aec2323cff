import SqlForms.Layout
import SqlForms.TypeName

/-! # Table definitions

    A table has columns and constraints.  A column is a list of its name and
    options, each a keyword and a value; it is required to have a value
    unless its type is a union with the null marker.  A reference to another
    table says what happens to the rows that refer to a row which goes. -/

namespace SqlForms.Table

open Layout (Within)

/-! ## References -/

/-- What happens to rows that refer to a row which is deleted or changed. -/
inductive ReferentialAction where
  | noAction
  | restrict
  | cascade
  | setNull
  | setDefault
  deriving DecidableEq, Repr, Inhabited

namespace ReferentialAction

/-- Unless something else is asked for, a row that is referred to stays. -/
def standard : ReferentialAction := .restrict

/-- The action that a symbol names. -/
def ofExpr (e : Expr) : Except Error ReferentialAction :=
  match e.symbol? with
  | some "no-action" => .ok .noAction
  | some "restrict" => .ok .restrict
  | some "cascade" => .ok .cascade
  | some "set-null" => .ok .setNull
  | some "set-default" => .ok .setDefault
  | _ => .error (.definition (.referentialAction e))

/-- The text of an action. -/
def sql : ReferentialAction → String
  | .noAction => "NO ACTION"
  | .restrict => "RESTRICT"
  | .cascade => "CASCADE"
  | .setNull => "SET NULL"
  | .setDefault => "SET DEFAULT"

end ReferentialAction

/-- The table that is referred to, and its columns if they are given. -/
def referenceTarget (owner : Owner) : Expr → Except Error (Expr × List Expr)
  | .list (table :: columns) => .ok (table, columns)
  | .list [] => .error (.definition (.emptyReference owner))
  | table => .ok (table, [])

/-- The actions on deletion and on update, of which at most two are given. -/
def referenceActions (owner : Owner) :
    List Expr → Except Error (ReferentialAction × ReferentialAction)
  | [] => .ok (.standard, .standard)
  | [onDelete] => return (← ReferentialAction.ofExpr onDelete, .standard)
  | [onDelete, onUpdate] =>
      return (← ReferentialAction.ofExpr onDelete, ← ReferentialAction.ofExpr onUpdate)
  | actions => .error (.definition (.tooManyActions owner actions.length))

/-- A reference to a table. -/
def reference (owner : Owner) (target : Expr) (actions : List Expr) : Layout :=
  .ofExcept do
    let (table, columns) ← referenceTarget owner target
    let (onDelete, onUpdate) ← referenceActions owner actions
    return .concat
      [["REFERENCES ", .part table],
       if columns.isEmpty then [] else .concat [["("], .joined ", " columns, [")"]],
       [" ON DELETE ", onDelete.sql, " ON UPDATE ", onUpdate.sql]]

/-- The table and the columns of a reference are its target or stand in it. -/
theorem reach_of_referenceTarget {owner : Owner} {target table : Expr} {columns : List Expr}
    (h : referenceTarget owner target = .ok (table, columns)) {e : Expr}
    (he : e = table ∨ e ∈ columns) : Reach [target] e := by
  unfold referenceTarget at h
  split at h
  · cases h
    exact .item (.operand (List.mem_singleton_self _)) (by simpa using he)
  · simp at h
  · cases h
    exact .operand (by simpa using he)

/-- A reference mentions its target and nothing of its actions. -/
theorem reference_within (owner : Owner) (target : Expr) (actions : List Expr) :
    Within [target] (reference owner target actions) := by
  refine Layout.within_ofExcept fun l hl e he => ?_
  obtain ⟨⟨table, columns⟩, ht, hl⟩ := bind_eq_ok.mp hl
  obtain ⟨actions, -, hl⟩ := bind_eq_ok.mp hl
  cases hl
  refine reach_of_referenceTarget ht ?_
  cases columns <;> simpa using he

/-! ## Columns -/

/-- Options in turn as keywords with their values; no keyword may come twice. -/
def readOptions (owner : Owner) (seen : List String) :
    List Expr → Except Error (List (String × Expr))
  | key :: value :: rest =>
      match key.keyword? with
      | none => .error (.definition (.optionMarker owner key))
      | some k =>
          if seen.contains k then .error (.definition (.repeatedOption owner k))
          else do
            let more ← readOptions owner (k :: seen) rest
            return (k, value) :: more
  | _ => .ok []

/-- The options of a column. -/
def options (owner : Owner) (items : List Expr) : Except Error (List (String × Expr)) :=
  if items.length % 2 = 0 then readOptions owner [] items
  else .error (.arity (owner.text ++ " options") .even items.length)

/-- What an option of a column adds to it. -/
def option (owner : Owner) (key : String) (value : Expr) : Layout :=
  match key with
  | "type" => []
  | "default" => [" DEFAULT ", .part value]
  | "primary-key" => if value.isTruthy then [" PRIMARY KEY"] else []
  | "unique" => if value.isTruthy then [" UNIQUE"] else []
  | "check" => [" CHECK ", .part value]
  | "references" =>
      match value with
      | .list (target :: actions) => .text " " :: reference owner target actions
      | _ => .refuse (.definition (.referenceShape owner))
  | _ => .refuse (.definition (.unknownOption owner key))

/-- A column with its type, and what its options add in the order they are given. -/
def columnLayout (name type : Expr) (given : List (String × Expr)) : Layout :=
  let (type, nullable) := TypeName.splitNullable type
  .concat
    [[.part name, " ", .ofExcept (TypeName.ofExpr type)],
     if nullable then [] else [" NOT NULL"],
     .concat (given.map fun o => option (.column name) o.1 o.2)]

/-- A column definition. -/
def column : Expr → Layout
  | .list (name :: items) =>
      .ofExcept do
        let given ← options (.column name) items
        match given.lookup "type" with
        | some type => .ok (columnLayout name type given)
        | none => .error (.definition (.noType (.column name)))
  | e => .refuse (.definition (.columnShape e))

/-- Fewer than two items give no option. -/
theorem readOptions_short {items : List Expr} (h : items.length < 2) (owner : Owner)
    (seen : List String) : readOptions owner seen items = .ok [] := by
  rcases items with _ | ⟨x, _ | ⟨y, es⟩⟩
  · rfl
  · rfl
  · exact absurd h (by simp)

/-- Options that can be read are a first one and those after it, unless there are none. -/
theorem readOptions_eq_ok {owner : Owner} {seen : List String} {items : List Expr}
    {given : List (String × Expr)} (h : readOptions owner seen items = .ok given) :
    (items.length < 2 ∧ given = []) ∨
      ∃ key value rest k more, items = key :: value :: rest ∧ key.keyword? = some k ∧
        ¬ seen.contains k ∧ readOptions owner (k :: seen) rest = .ok more ∧
        given = (k, value) :: more := by
  rcases items with _ | ⟨key, _ | ⟨value, rest⟩⟩
  · cases h
    exact .inl ⟨by simp, rfl⟩
  · cases h
    exact .inl ⟨by simp, rfl⟩
  · rw [readOptions] at h
    cases hk : key.keyword? with
    | none => simp [hk] at h
    | some k =>
        simp only [hk] at h
        by_cases hs : seen.contains k
        · rw [if_pos hs] at h
          cases h
        · rw [if_neg hs] at h
          obtain ⟨more, hr, h⟩ := bind_eq_ok.mp h
          cases h
          exact .inr ⟨key, value, rest, k, more, rfl, hk, hs, hr, rfl⟩

/-- The value of an option is one of the items. -/
theorem mem_of_mem_readOptions {owner : Owner} {seen : List String} {items : List Expr}
    {given : List (String × Expr)} (h : readOptions owner seen items = .ok given)
    {o : String × Expr} (ho : o ∈ given) : o.2 ∈ items := by
  induction given generalizing seen items with
  | nil => cases ho
  | cons first more ih =>
      rcases readOptions_eq_ok h with ⟨-, h⟩ | ⟨key, value, rest, k, more, rfl, -, -, hr, h⟩
      · cases h
      · cases h
        rcases List.mem_cons.mp ho with rfl | ho
        · simp
        · exact List.mem_cons_of_mem _ (List.mem_cons_of_mem _ (ih hr ho))

/-- An option mentions its value. -/
theorem option_within (owner : Owner) (key : String) (value : Expr) :
    Within [value] (option owner key value) := by
  intro e h
  unfold option at h
  split at h
  · simp at h
  · exact .operand (by simpa using h)
  · split at h <;> simp at h
  · split at h <;> simp at h
  · exact .operand (by simpa using h)
  · split at h
    next target actions =>
      refine (reference_within owner target actions e (by simpa using h)).mono fun x hx => ?_
      exact .item (.operand (List.mem_singleton_self _)) (by simp_all)
    next => simp at h
  · simp at h

/-- A column mentions its name and the values of its options. -/
theorem columnLayout_within {name type : Expr} {items : List Expr}
    {given : List (String × Expr)} (hg : ∀ o ∈ given, o.2 ∈ items) :
    Within (name :: items) (columnLayout name type given) := by
  intro e h
  simp only [columnLayout, Layout.part_mem_concat, List.mem_cons, List.not_mem_nil, or_false,
    exists_eq_or_imp, exists_eq_left] at h
  rcases h with h | h | h
  · exact .operand (by simp_all)
  · split at h <;> simp at h
  · obtain ⟨l, hl, he⟩ := h
    obtain ⟨o, ho, rfl⟩ := List.mem_map.mp hl
    refine (option_within _ o.1 o.2 e he).mono fun x hx => ?_
    rw [List.mem_singleton.mp hx]
    exact .operand (List.mem_cons_of_mem _ (hg o ho))

/-- A column mentions what stands in its definition. -/
theorem column_within (c : Expr) : Within [c] (column c) := by
  unfold column
  split
  next name items =>
    refine Layout.within_ofExcept fun l hl => ?_
    obtain ⟨given, ho, hl⟩ := bind_eq_ok.mp hl
    split at hl
    next type _ =>
      cases hl
      intro e he
      have hg : ∀ o ∈ given, o.2 ∈ items := by
        unfold options at ho
        split at ho
        · exact fun o => mem_of_mem_readOptions ho
        · simp at ho
      refine (columnLayout_within hg e he).mono fun x hx => ?_
      exact .item (.operand (List.mem_singleton_self _)) hx
    next => simp at hl
  next => intro e h; simp at h

/-! ## Constraints -/

/-- A constraint from the items of its list; a named one is a constraint with a name before it. -/
def constraint : List Expr → Layout
  | [.keyword "check", condition] => ["CHECK ", .part condition]
  | .keyword "primary-key" :: c :: cs =>
      .concat [["PRIMARY KEY ("], .joined ", " (c :: cs), [")"]]
  | .keyword "unique" :: c :: cs => .concat [["UNIQUE ("], .joined ", " (c :: cs), [")"]]
  | .keyword "foreign-key" :: .list (c :: cs) :: target :: actions =>
      .concat
        [["FOREIGN KEY ("], .joined ", " (c :: cs), [") "],
         reference .foreignKey target actions]
  | .keyword "constraint" :: name :: e :: es =>
      .text "CONSTRAINT " :: .part name :: .text " " :: constraint (e :: es)
  | es => .refuse (.definition (.constraint (.list es)))

/-- A constraint of a table. -/
def tableConstraint : Expr → Layout
  | .list (e :: es) => constraint (e :: es)
  | e => .refuse (.definition (.constraintShape e))

/-- A constraint mentions its operands only. -/
theorem constraint_within (es : List Expr) : Within es (constraint es) := by
  fun_induction constraint es with
  | case1 condition => exact fun e h => .operand (by simp_all)
  | case2 c cs => exact fun e h => .operand (by simp_all)
  | case3 c cs => exact fun e h => .operand (by simp_all)
  | case4 c cs target actions =>
      intro e h
      simp only [Layout.part_mem_concat, List.mem_cons, List.not_mem_nil, or_false,
        exists_eq_or_imp, exists_eq_left] at h
      rcases h with h | h | h | h
      · simp at h
      · exact .item (show Reach _ (.list (c :: cs)) from .operand (by simp)) (by simpa using h)
      · simp at h
      · refine (reference_within _ target actions e h).mono fun x hx => ?_
        exact .operand (by simp_all)
  | case5 name x xs ih =>
      intro e h
      rcases (by simpa using h : e = name ∨ .part e ∈ constraint (x :: xs)) with rfl | h
      · exact .operand (by simp)
      · refine (ih e h).mono fun y hy => .operand ?_
        exact List.mem_cons_of_mem _ (List.mem_cons_of_mem _ hy)
  | case6 => exact fun e h => by simp at h

/-- A constraint of a table mentions what stands in its definition. -/
theorem tableConstraint_within (c : Expr) : Within [c] (tableConstraint c) := by
  unfold tableConstraint
  split
  · intro e h
    refine (constraint_within _ e h).mono fun x hx => ?_
    exact .item (.operand (List.mem_singleton_self _)) hx
  · intro e h; simp at h

/-! ## Tables -/

/-- A table definition. -/
def createTable : List Expr → Layout
  | name :: .list (c :: cs) :: constraints =>
      .concat
        [["CREATE TABLE ", .part name, " ("],
         .separated ", " ((c :: cs).map column ++ constraints.map tableConstraint), [")"]]
  | name :: .list [] :: _ => .refuse (.definition (.noColumns name))
  | name :: e :: _ => .refuse (.definition (.columnList name e))
  | es => .arity "create-table" (.atLeast 2) es

/-- The definition of a table mentions its operands only. -/
theorem createTable_within (es : List Expr) : Within es (createTable es) := by
  intro e h
  unfold createTable at h
  split at h
  next name c cs constraints =>
    simp only [Layout.part_mem_concat, List.mem_cons, List.not_mem_nil, or_false,
      exists_eq_or_imp, exists_eq_left] at h
    rcases h with h | h | h
    · exact .operand (by simp_all)
    · obtain ⟨l, hl, he⟩ := Layout.part_mem_separated.mp h
      rcases List.mem_append.mp hl with hl | hl
      · obtain ⟨x, hx, rfl⟩ := List.mem_map.mp hl
        refine (column_within x e he).mono fun y hy => ?_
        rw [List.mem_singleton.mp hy]
        exact .item (show Reach _ (.list (c :: cs)) from .operand (by simp)) hx
      · obtain ⟨x, hx, rfl⟩ := List.mem_map.mp hl
        refine (tableConstraint_within x e he).mono fun y hy => ?_
        rw [List.mem_singleton.mp hy]
        exact .operand (by simp [hx])
    · simp at h
  · simp at h
  · simp at h
  · simp at h

end SqlForms.Table
