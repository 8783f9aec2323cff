import Mathlib.Data.List.Nodup
import SqlForms.Proofs.Layouts
import SqlForms.Proofs.Placeholders.Forms

/-! # Column definitions

    A column is read in several passes: its options are paired, their type is
    looked up, and each option is written when its turn comes, so that an
    unknown one is only found after those before it.  All the same a column is
    accepted exactly when it has the right form, and the form is told here
    without the passes:

    * `Table.Definition` is a column whose options are known ones, none of
      them given twice, with a type among them;
    * `TypeName.Bare` takes the union with the null marker off a type, and
      `Table.Adds` is what one option adds to a column;
    * `Table.Definition.Valid` is what has to hold of the trees of a column,
      and `Table.Definition.Written` is what the column is written as. -/

namespace SqlForms

/-! ## Nullable types -/

namespace TypeName

/-- Whether a tree is the null marker: a symbol that names it in any ASCII case. -/
def IsMarker (e : Expr) : Prop :=
  ∃ n, (e = .identifier n ∨ e = .keyword n) ∧ asciiLower n = nullMarker.toList

/-- Whether a type is a union of the given type with the null marker. -/
inductive Nullable : Expr → Expr → Prop where
  | markerFirst {m t : Expr} : IsMarker m → Nullable (.operation "or" [m, t]) t
  | markerLast {m t : Expr} : ¬ IsMarker t → IsMarker m → Nullable (.operation "or" [t, m]) t
  | marked {t : Expr} : Nullable (.operation "db-null" [t]) t

/-- A type without its union with the null marker, and whether there is one. -/
inductive Bare : Expr → Expr → Bool → Prop where
  | nullable {type t : Expr} : Nullable type t → Bare type t true
  | plain {type : Expr} : (∀ t, ¬ Nullable type t) → Bare type type false

/-- The marker is found as a name or a keyword, in letters of either case. -/
theorem isNullMarker_iff {e : Expr} : isNullMarker e = true ↔ IsMarker e := by
  constructor
  · intro h
    cases e with
    | identifier n => exact ⟨n, .inl rfl, beq_iff_eq.mp h⟩
    | keyword n => exact ⟨n, .inr rfl, beq_iff_eq.mp h⟩
    | _ => cases h
  · rintro ⟨n, rfl | rfl, hn⟩
    · exact beq_iff_eq.mpr hn
    · exact beq_iff_eq.mpr hn

/-- A type is split as nullable exactly when it carries the marker. -/
theorem nullable_iff {type t : Expr} : Nullable type t ↔ splitNullable type = (t, true) := by
  constructor
  · intro h
    cases h with
    | markerFirst hm => exact if_pos ⟨rfl, isNullMarker_iff.mpr hm⟩
    | markerLast ht hm =>
        -- The first operand is asked first, so the second counts only when that is no marker.
        refine (if_neg fun h => ht (isNullMarker_iff.mp h.2)).trans ?_
        exact if_pos ⟨rfl, isNullMarker_iff.mpr hm⟩
    | marked => rfl
  · intro h
    unfold splitNullable at h
    split at h
    next tag a b =>
      split at h
      next ha =>
        cases h
        obtain ⟨rfl, hm⟩ := ha
        exact .markerFirst (isNullMarker_iff.mp hm)
      next ha =>
        split at h
        next hb =>
          cases h
          obtain ⟨rfl, hm⟩ := hb
          exact .markerLast (fun ht => ha ⟨rfl, isNullMarker_iff.mpr ht⟩) (isNullMarker_iff.mp hm)
        next => cases h
    next tag inner =>
      split at h
      next htag =>
        cases h
        subst htag
        exact .marked
      next => cases h
    next => cases h

/-- A type that is not taken apart is kept. -/
theorem splitNullable_of_false {type : Expr} (h : (splitNullable type).2 = false) :
    splitNullable type = (type, false) := by
  unfold splitNullable at h ⊢
  split
  · grind
  · grind
  · rfl

/-- Every type is split into its bare type and whether it was nullable. -/
theorem bare_iff {type t : Expr} {nullable : Bool} :
    Bare type t nullable ↔ splitNullable type = (t, nullable) := by
  constructor
  · intro h
    cases h with
    | nullable ht => exact nullable_iff.mp ht
    | plain hnone =>
        refine splitNullable_of_false (Bool.eq_false_iff.mpr fun htrue => ?_)
        exact hnone _ (nullable_iff.mpr (Prod.ext rfl htrue))
  · intro h
    cases nullable with
    | true => exact .nullable (nullable_iff.mpr h)
    | false =>
        obtain rfl : type = t := by
          rw [splitNullable_of_false (congrArg Prod.snd h)] at h
          exact congrArg Prod.fst h
        refine .plain fun t ht => ?_
        rw [nullable_iff.mp ht] at h
        cases h

end TypeName

namespace Table

open Layout (Writes)

variable {c : Compiler} {f : Fragments}

/-! ## References -/

/-- The name of an action. -/
def ReferentialAction.name : ReferentialAction → String
  | .noAction => "no-action"
  | .restrict => "restrict"
  | .cascade => "cascade"
  | .setNull => "set-null"
  | .setDefault => "set-default"

/-- Whether a tree is a symbol that names an action. -/
def ReferentialAction.Names (e : Expr) (a : ReferentialAction) : Prop :=
  e = .identifier a.name ∨ e = .keyword a.name

/-- An action is read exactly from its names. -/
theorem ReferentialAction.ofExpr_eq_ok {e : Expr} {a : ReferentialAction} :
    ofExpr e = .ok a ↔ Names e a := by
  have hsymbol : ∀ {n : String}, e.symbol? = some n → e = .identifier n ∨ e = .keyword n := by
    intro n h
    cases e with
    | identifier m => exact .inl (congrArg Expr.identifier (Option.some.inj h))
    | keyword m => exact .inr (congrArg Expr.keyword (Option.some.inj h))
    | _ => cases h
  constructor
  · intro h
    unfold ofExpr at h
    split at h
    case h_6 => cases h
    all_goals
      next hname =>
        cases h
        exact hsymbol hname
  · rintro (rfl | rfl) <;> cases a <;> rfl

/-- The table that a target names, with the columns that are given. -/
inductive Target : Expr → Expr → List Expr → Prop where
  | table {t : Expr} : (∀ es, t ≠ .list es) → Target t t []
  | columns {t : Expr} {cs : List Expr} : Target (.list (t :: cs)) t cs

/-- The actions on deletion and on update: what is not given is the standard action. -/
inductive Actions : List Expr → ReferentialAction → ReferentialAction → Prop where
  | neither : Actions [] .standard .standard
  | onDelete {e : Expr} {a : ReferentialAction} : a.Names e → Actions [e] a .standard
  | both {e e' : Expr} {a b : ReferentialAction} :
      a.Names e → b.Names e' → Actions [e, e'] a b

/-- A target is read exactly as a table, alone or with columns in a list. -/
theorem referenceTarget_eq_ok {owner : Owner} {target table : Expr} {columns : List Expr} :
    referenceTarget owner target = .ok (table, columns) ↔ Target target table columns := by
  constructor
  · intro h
    unfold referenceTarget at h
    split at h
    next =>
      cases h
      exact .columns
    next => cases h
    next hcons hnil =>
      cases h
      refine .table fun es hes => ?_
      cases es with
      | nil => exact hnil hes
      | cons e es => exact hcons e es hes
  · intro h
    cases h with
    | columns => rfl
    | table ht =>
        cases target with
        | list es => exact absurd rfl (ht es)
        | _ => rfl

/-- Actions are read exactly from up to two names; one that is not given is the standard one. -/
theorem referenceActions_eq_ok {owner : Owner} {es : List Expr} {a b : ReferentialAction} :
    referenceActions owner es = .ok (a, b) ↔ Actions es a b := by
  constructor
  · intro h
    unfold referenceActions at h
    split at h
    next =>
      cases h
      exact .neither
    next =>
      obtain ⟨_, ha, h⟩ := bind_eq_ok.mp h
      cases h
      exact .onDelete (ReferentialAction.ofExpr_eq_ok.mp ha)
    next =>
      obtain ⟨_, ha, h⟩ := bind_eq_ok.mp h
      obtain ⟨_, hb, h⟩ := bind_eq_ok.mp h
      cases h
      exact .both (ReferentialAction.ofExpr_eq_ok.mp ha) (ReferentialAction.ofExpr_eq_ok.mp hb)
    next => cases h
  · intro h
    cases h with
    | neither => rfl
    | onDelete ha =>
        exact bind_eq_ok.mpr ⟨_, ReferentialAction.ofExpr_eq_ok.mpr ha, rfl⟩
    | both ha hb =>
        exact bind_eq_ok.mpr ⟨_, ReferentialAction.ofExpr_eq_ok.mpr ha,
          bind_eq_ok.mpr ⟨_, ReferentialAction.ofExpr_eq_ok.mpr hb, rfl⟩⟩

/-- Columns in parentheses; nothing when there are none. -/
def columnList : List Fragments → Fragments
  | [] => .empty
  | fs => .concat [.ofText "(", .join ", " fs, .ofText ")"]

/-- What a reference with a target and actions is written as. -/
inductive Refers (c : Compiler) (target : Expr) (actions : List Expr) : Fragments → Prop where
  | intro {table : Expr} {columns : List Expr} {onDelete onUpdate : ReferentialAction}
      {t : Fragments} {cs : List Fragments} :
      Target target table columns → Actions actions onDelete onUpdate →
      c.write table = .ok t → List.Forall₂ (fun e f => c.write e = .ok f) columns cs →
      Refers c target actions
        (.concat [.ofText "REFERENCES ", t, columnList cs, .ofText " ON DELETE ",
          .ofText onDelete.sql, .ofText " ON UPDATE ", .ofText onUpdate.sql])

/-- Columns are written in parentheses, and no columns as nothing. -/
theorem writes_columnList {columns : List Expr} :
    Writes c (if columns.isEmpty then [] else
        .concat [["("], .joined ", " columns, [")"]]) f ↔
      ∃ cs, List.Forall₂ (fun e f => c.write e = .ok f) columns cs ∧ f = columnList cs := by
  cases columns with
  | nil =>
      show Writes c [] f ↔ _
      simp [columnList]
  | cons e es =>
      refine Layout.writes_parentheses.trans (exists_congr fun cs => and_congr_right fun hcs => ?_)
      cases hcs with
      | cons => rfl

/-- A reference as it is laid out. -/
def referenceLayout (table : Expr) (columns : List Expr) (onDelete onUpdate : ReferentialAction) :
    Layout :=
  .text "REFERENCES " :: .part table ::
    ((if columns.isEmpty then [] else Layout.concat [["("], .joined ", " columns, [")"]]) ++
      [.text " ON DELETE ", .text onDelete.sql, .text " ON UPDATE ", .text onUpdate.sql])

/-- A reference writes its table, its columns and both actions. -/
theorem writes_referenceLayout {table : Expr} {columns : List Expr}
    {onDelete onUpdate : ReferentialAction} :
    Writes c (referenceLayout table columns onDelete onUpdate) f ↔
      ∃ t cs, c.write table = .ok t ∧
        List.Forall₂ (fun e f => c.write e = .ok f) columns cs ∧
        f = .concat [.ofText "REFERENCES ", t, columnList cs, .ofText " ON DELETE ",
          .ofText onDelete.sql, .ofText " ON UPDATE ", .ofText onUpdate.sql] := by
  constructor
  · intro h
    obtain ⟨_, htable, rfl⟩ := Layout.writes_text.mp h
    obtain ⟨t, _, ht, hrest, rfl⟩ := Layout.writes_part.mp htable
    obtain ⟨_, _, hcolumns, hactions, rfl⟩ := Layout.writes_append.mp hrest
    obtain ⟨cs, hcs, rfl⟩ := writes_columnList.mp hcolumns
    obtain ⟨_, hdelete, rfl⟩ := Layout.writes_text.mp hactions
    obtain ⟨_, hupdate, rfl⟩ := Layout.writes_text.mp hdelete
    obtain ⟨_, hlast, rfl⟩ := Layout.writes_text.mp hupdate
    obtain rfl := Layout.writes_single_text.mp hlast
    exact ⟨t, cs, ht, hcs, rfl⟩
  · rintro ⟨t, cs, ht, hcs, rfl⟩
    refine .text _ (.part ht (.append (writes_columnList.mpr ⟨_, hcs, rfl⟩) ?_))
    exact .text _ (.text _ (.text _ (Layout.writes_single_text.mpr rfl)))

/-- A reference is written exactly when its target and its actions are readable. -/
theorem writes_reference {owner : Owner} {target : Expr} {actions : List Expr} :
    Writes c (reference owner target actions) f ↔ Refers c target actions f := by
  rw [reference, Layout.writes_ofExcept]
  constructor
  · rintro ⟨l, hl, hwrites⟩
    obtain ⟨⟨table, columns⟩, htarget, hl⟩ := bind_eq_ok.mp hl
    obtain ⟨⟨onDelete, onUpdate⟩, hactions, hl⟩ := bind_eq_ok.mp hl
    obtain rfl : referenceLayout table columns onDelete onUpdate = l := Except.ok.inj hl
    obtain ⟨t, cs, ht, hcs, rfl⟩ := writes_referenceLayout.mp hwrites
    exact .intro (referenceTarget_eq_ok.mp htarget) (referenceActions_eq_ok.mp hactions) ht hcs
  · rintro ⟨htarget, hactions, ht, hcs⟩
    refine ⟨referenceLayout _ _ _ _, ?_, writes_referenceLayout.mpr ⟨_, _, ht, hcs, rfl⟩⟩
    exact bind_eq_ok.mpr ⟨_, referenceTarget_eq_ok.mpr htarget,
      bind_eq_ok.mpr ⟨_, referenceActions_eq_ok.mpr hactions, rfl⟩⟩

/-- A target can be written unless it is the empty list. -/
theorem exists_target_iff {target : Expr} :
    (∃ table columns, Target target table columns ∧ c.Accepts table ∧
        ∀ e ∈ columns, c.Accepts e) ↔
      target ≠ .list [] ∧ c.Accepts target := by
  constructor
  · rintro ⟨table, columns, htarget, htable, hcolumns⟩
    cases htarget with
    | table ht => exact ⟨ht [], htable⟩
    | columns =>
        refine ⟨fun h => ?_, Compiler.accepts_list.mpr ?_⟩
        · cases h
        · exact List.forall_mem_cons.mpr ⟨htable, hcolumns⟩
  · rintro ⟨hne, haccepts⟩
    by_cases hlist : ∃ es, target = .list es
    · obtain ⟨es, rfl⟩ := hlist
      cases es with
      | nil => exact absurd rfl hne
      | cons t cs =>
          obtain ⟨ht, hcs⟩ := List.forall_mem_cons.mp (Compiler.accepts_list.mp haccepts)
          exact ⟨t, cs, .columns, ht, hcs⟩
    · refine ⟨target, [], .table fun es hes => hlist ⟨es, hes⟩, haccepts, ?_⟩
      intro e he
      cases he

/-- There are at most two actions, and each is a name of one. -/
theorem exists_actions_iff {es : List Expr} :
    (∃ a b, Actions es a b) ↔
      es.length ≤ 2 ∧ ∀ e ∈ es, ∃ a : ReferentialAction, a.Names e := by
  constructor
  · rintro ⟨a, b, h⟩
    cases h with
    | neither => simp
    | onDelete ha => exact ⟨by simp, by simpa using ⟨a, ha⟩⟩
    | both ha hb => exact ⟨by simp, by simpa using ⟨⟨a, ha⟩, b, hb⟩⟩
  · rintro ⟨hlength, hnames⟩
    rcases es with _ | ⟨e, _ | ⟨e', _ | ⟨e'', es⟩⟩⟩
    · exact ⟨_, _, .neither⟩
    · obtain ⟨a, ha⟩ := hnames e (by simp)
      exact ⟨a, _, .onDelete ha⟩
    · obtain ⟨a, ha⟩ := hnames e (by simp)
      obtain ⟨b, hb⟩ := hnames e' (by simp)
      exact ⟨a, b, .both ha hb⟩
    · simp at hlength

/-- A reference is written when its target can be and its actions are two at most. -/
theorem exists_refers_iff {target : Expr} {actions : List Expr} :
    (∃ f, Refers c target actions f) ↔
      target ≠ .list [] ∧ c.Accepts target ∧ actions.length ≤ 2 ∧
        ∀ e ∈ actions, ∃ a : ReferentialAction, a.Names e := by
  rw [← and_assoc, ← exists_target_iff, ← exists_actions_iff]
  constructor
  · rintro ⟨_, htarget, hactions, ht, hcs⟩
    exact ⟨⟨_, _, htarget, ⟨_, ht⟩, exists_forall₂_iff.mp ⟨_, hcs⟩⟩, _, _, hactions⟩
  · rintro ⟨⟨_, _, htarget, ⟨_, ht⟩, hcolumns⟩, _, _, hactions⟩
    obtain ⟨_, hcs⟩ := exists_forall₂_iff.mpr hcolumns
    exact ⟨_, .intro htarget hactions ht hcs⟩

/-! ## Options -/

/-- The options that a column may have. -/
inductive Key where
  | type
  | default
  | primaryKey
  | unique
  | check
  | references
  deriving DecidableEq, Repr

/-- The keyword of an option. -/
def Key.text : Key → String
  | type => "type"
  | default => "default"
  | primaryKey => "primary-key"
  | unique => "unique"
  | check => "check"
  | references => "references"

/-- No two options have the same keyword. -/
theorem Key.text_injective : Function.Injective Key.text := by
  intro k k'
  cases k <;> cases k' <;> decide

/-- Whether a tree is a constant that turns an option off: null or false. -/
def IsOff (e : Expr) : Prop :=
  ∃ v : Value, (e = .literal v ∨ e = .quoted v) ∧ (v = .null ∨ v = .bool false)

/-- A value turns an option on unless it is a constant that turns it off. -/
theorem isTruthy_iff {e : Expr} : e.isTruthy = true ↔ ¬ IsOff e := by
  constructor
  · rintro h ⟨v, rfl | rfl, rfl | rfl⟩ <;> cases h
  · intro h
    unfold Expr.isTruthy
    split
    · exact absurd ⟨_, .inl rfl, .inl rfl⟩ h
    · exact absurd ⟨_, .inl rfl, .inr rfl⟩ h
    · exact absurd ⟨_, .inr rfl, .inl rfl⟩ h
    · exact absurd ⟨_, .inr rfl, .inr rfl⟩ h
    · rfl

/-- What an option adds to a column. -/
inductive Adds (c : Compiler) : Key × Expr → Fragments → Prop where
  | type {v : Expr} : Adds c (.type, v) .empty
  | default {v : Expr} {f : Fragments} :
      c.write v = .ok f → Adds c (.default, v) (.ofText " DEFAULT " ++ f)
  | primaryKey {v : Expr} : ¬ IsOff v → Adds c (.primaryKey, v) (.ofText " PRIMARY KEY")
  | notPrimaryKey {v : Expr} : IsOff v → Adds c (.primaryKey, v) .empty
  | unique {v : Expr} : ¬ IsOff v → Adds c (.unique, v) (.ofText " UNIQUE")
  | notUnique {v : Expr} : IsOff v → Adds c (.unique, v) .empty
  | check {v : Expr} {f : Fragments} :
      c.write v = .ok f → Adds c (.check, v) (.ofText " CHECK " ++ f)
  | references {target : Expr} {actions : List Expr} {f : Fragments} :
      Refers c target actions f →
        Adds c (.references, .list (target :: actions)) (.ofText " " ++ f)

/-- A text that is written unless a value turns it off. -/
theorem writes_flag {s : String} {v : Expr} :
    Writes c (if v.isTruthy then [.text s] else []) f ↔
      (¬ IsOff v ∧ f = .ofText s) ∨ (IsOff v ∧ f = .empty) := by
  by_cases hv : IsOff v
  · rw [if_neg (fun h => isTruthy_iff.mp h hv), Layout.writes_nil]
    simp [hv]
  · rw [if_pos (isTruthy_iff.mpr hv), Layout.writes_single_text]
    simp [hv]

/-- An option is written when it is a known one, and then as what it adds. -/
theorem writes_option {owner : Owner} {key : String} {v : Expr} :
    Writes c (option owner key v) f ↔ ∃ k : Key, k.text = key ∧ Adds c (k, v) f := by
  constructor
  · intro h
    unfold option at h
    -- One case for each keyword, in the order of the definition; any other is refused.
    split at h
    next =>
      obtain rfl := Layout.writes_nil.mp h
      exact ⟨.type, rfl, .type⟩
    next =>
      obtain ⟨_, hv, rfl⟩ := Layout.writes_text.mp h
      exact ⟨.default, rfl, .default (Layout.writes_single_part.mp hv)⟩
    next =>
      rcases writes_flag.mp h with ⟨hv, rfl⟩ | ⟨hv, rfl⟩
      · exact ⟨.primaryKey, rfl, .primaryKey hv⟩
      · exact ⟨.primaryKey, rfl, .notPrimaryKey hv⟩
    next =>
      rcases writes_flag.mp h with ⟨hv, rfl⟩ | ⟨hv, rfl⟩
      · exact ⟨.unique, rfl, .unique hv⟩
      · exact ⟨.unique, rfl, .notUnique hv⟩
    next =>
      obtain ⟨_, hv, rfl⟩ := Layout.writes_text.mp h
      exact ⟨.check, rfl, .check (Layout.writes_single_part.mp hv)⟩
    next =>
      split at h
      next =>
        obtain ⟨_, hv, rfl⟩ := Layout.writes_text.mp h
        exact ⟨.references, rfl, .references (writes_reference.mp hv)⟩
      next => exact absurd h Layout.not_writes_refuse
    next => exact absurd h Layout.not_writes_refuse
  · rintro ⟨k, rfl, h⟩
    cases h with
    | type => exact Layout.writes_nil.mpr rfl
    | default hf => exact .text _ (Layout.writes_single_part.mpr hf)
    | primaryKey hv => exact writes_flag.mpr (.inl ⟨hv, rfl⟩)
    | notPrimaryKey hv => exact writes_flag.mpr (.inr ⟨hv, rfl⟩)
    | unique hv => exact writes_flag.mpr (.inl ⟨hv, rfl⟩)
    | notUnique hv => exact writes_flag.mpr (.inr ⟨hv, rfl⟩)
    | check hf => exact .text _ (Layout.writes_single_part.mpr hf)
    | references hf => exact .text _ (writes_reference.mpr hf)

/-- An option adds one thing. -/
theorem adds_rightUnique : Relator.RightUnique (Adds c) := by
  intro o f g hf hg
  have hf := (@writes_option c f .foreignKey _ _).mpr ⟨o.1, rfl, hf⟩
  have hg := (@writes_option c g .foreignKey _ _).mpr ⟨o.1, rfl, hg⟩
  exact Except.ok.inj (hf.symm.trans hg)

/-- What the value of an option has to be. -/
def Admits (c : Compiler) : Key × Expr → Prop
  | (.default, v) => c.Accepts v
  | (.check, v) => c.Accepts v
  | (.references, v) => ∃ target actions, v = .list (target :: actions) ∧
      target ≠ .list [] ∧ c.Accepts target ∧ actions.length ≤ 2 ∧
        ∀ e ∈ actions, ∃ a : ReferentialAction, a.Names e
  | _ => True

/-- An option is written exactly when its value is admitted. -/
theorem exists_adds_iff {o : Key × Expr} : (∃ f, Adds c o f) ↔ Admits c o := by
  obtain ⟨k, v⟩ := o
  constructor
  · rintro ⟨f, h⟩
    cases h with
    | default hf => exact ⟨_, hf⟩
    | check hf => exact ⟨_, hf⟩
    | references hf => exact ⟨_, _, rfl, exists_refers_iff.mp ⟨_, hf⟩⟩
    | _ => trivial
  · intro h
    cases k with
    | type => exact ⟨_, .type⟩
    | default =>
        obtain ⟨f, hf⟩ := h
        exact ⟨_, .default hf⟩
    | primaryKey =>
        by_cases hv : IsOff v
        · exact ⟨_, .notPrimaryKey hv⟩
        · exact ⟨_, .primaryKey hv⟩
    | unique =>
        by_cases hv : IsOff v
        · exact ⟨_, .notUnique hv⟩
        · exact ⟨_, .unique hv⟩
    | check =>
        obtain ⟨f, hf⟩ := h
        exact ⟨_, .check hf⟩
    | references =>
        obtain ⟨target, actions, rfl, h⟩ := h
        obtain ⟨f, hf⟩ := exists_refers_iff.mpr h
        exact ⟨_, .references hf⟩

/-! ## Reading options -/

/-- Options as they are given: a keyword and its value in turn. -/
def itemsOf (given : List (String × Expr)) : List Expr :=
  given.flatMap fun o => [.keyword o.1, o.2]

/-- Options of an even number of items are read as they are given. -/
theorem items_of_readOptions {owner : Owner} {seen : List String} {items : List Expr}
    {given : List (String × Expr)} (heven : items.length % 2 = 0)
    (h : readOptions owner seen items = .ok given) : items = itemsOf given := by
  induction given generalizing seen items with
  | nil =>
      rcases readOptions_eq_ok h with ⟨hshort, -⟩ | ⟨_, _, _, _, _, -, -, -, -, hgiven⟩
      · exact List.length_eq_zero_iff.mp (by omega)
      · cases hgiven
  | cons first more ih =>
      rcases readOptions_eq_ok h with ⟨-, hgiven⟩ | ⟨key, v, rest, k, _, rfl, hk, -, hrest, hgiven⟩
      · cases hgiven
      · cases hgiven
        obtain rfl : key = .keyword k := by
          cases key with
          | keyword n => exact congrArg Expr.keyword (Option.some.inj hk)
          | _ => cases hk
        have heven' : rest.length % 2 = 0 := by simpa [Nat.add_assoc] using heven
        rw [ih heven' hrest]
        rfl

/-- Options with different keys, none of them seen before, are read. -/
theorem readOptions_itemsOf {owner : Owner} {seen : List String} {given : List (String × Expr)}
    (hdistinct : (given.map (·.1)).Nodup) (hseen : ∀ k ∈ given.map (·.1), k ∉ seen) :
    readOptions owner seen (itemsOf given) = .ok given := by
  induction given generalizing seen with
  | nil => rfl
  | cons first more ih =>
      rw [List.map_cons, List.nodup_cons] at hdistinct
      rw [List.map_cons, List.forall_mem_cons] at hseen
      have hnew : ¬ seen.contains first.1 := fun h => hseen.1 (List.contains_iff_mem.mp h)
      have hmore : ∀ k ∈ more.map (·.1), k ∉ first.1 :: seen := by
        intro k hk hmem
        rcases List.mem_cons.mp hmem with rfl | hmem
        · exact hdistinct.1 hk
        · exact hseen.2 k hk hmem
      -- What is seen grows by the first key, which is not among the later ones.
      refine (if_neg hnew).trans ?_
      exact bind_eq_ok.mpr ⟨more, ih hdistinct.2 hmore, rfl⟩

/-- Options are read when they are keywords and values in turn, and no keyword comes twice. -/
theorem options_eq_ok {owner : Owner} {items : List Expr} {given : List (String × Expr)} :
    options owner items = .ok given ↔ items = itemsOf given ∧ (given.map (·.1)).Nodup := by
  rw [options]
  constructor
  · intro h
    by_cases heven : items.length % 2 = 0
    · rw [if_pos heven] at h
      exact ⟨items_of_readOptions heven h, (nodup_of_readOptions h).1⟩
    · rw [if_neg heven] at h
      cases h
  · rintro ⟨rfl, hdistinct⟩
    have heven : (itemsOf given).length % 2 = 0 := by
      simp [itemsOf, List.length_flatMap]
    rw [if_pos heven]
    exact readOptions_itemsOf hdistinct fun _ _ h => by cases h

/-! ## Columns -/

private theorem columnLayout_eq {name type bare : Expr} {nullable : Bool}
    {given : List (String × Expr)} (h : TypeName.splitNullable type = (bare, nullable)) :
    columnLayout name type given =
      .part name :: .text " " :: .ofExcept (TypeName.ofExpr bare) ::
        ((if nullable then [] else [.text " NOT NULL"]) ++
          Layout.concat (given.map fun o => option (.column name) o.1 o.2)) := by
  simp [columnLayout, h, Layout.concat]

/-- A column writes its name, its bare type, whether it may be null and its options in order. -/
theorem writes_columnLayout {name type : Expr} {given : List (String × Expr)} :
    Writes c (columnLayout name type given) f ↔
      ∃ n bare nullable text clauses, c.write name = .ok n ∧
        TypeName.Bare type bare nullable ∧ TypeName.ofExpr bare = .ok text ∧
        List.Forall₂ (fun o g => ∃ k : Key, k.text = o.1 ∧ Adds c (k, o.2) g) given clauses ∧
        f = .concat (n :: .ofText " " :: .ofText text ::
          (if nullable then .empty else .ofText " NOT NULL") :: clauses) := by
  have hnull : ∀ {nullable : Bool} {g : Fragments},
      Writes c (if nullable then [] else [.text " NOT NULL"]) g ↔
        g = if nullable then .empty else .ofText " NOT NULL" := by
    intro nullable g
    cases nullable with
    | true => exact Layout.writes_nil
    | false => exact Layout.writes_single_text
  have hclauses : ∀ {clauses : List Fragments},
      List.Forall₂ (Writes c) (given.map fun o => option (.column name) o.1 o.2) clauses ↔
        List.Forall₂ (fun o g => ∃ k : Key, k.text = o.1 ∧ Adds c (k, o.2) g) given clauses := by
    intro clauses
    rw [List.forall₂_map_left_iff]
    simp only [writes_option]
  constructor
  · intro h
    -- The pieces of the layout are taken off from left to right.
    obtain ⟨⟨bare, nullable⟩, hsplit⟩ : ∃ p, TypeName.splitNullable type = p := ⟨_, rfl⟩
    rw [columnLayout_eq hsplit] at h
    obtain ⟨n, _, hn, hblank, rfl⟩ := Layout.writes_part.mp h
    obtain ⟨_, htype, rfl⟩ := Layout.writes_text.mp hblank
    obtain ⟨text, _, htext, hrest, rfl⟩ := Layout.writes_ofExcept_cons.mp htype
    obtain ⟨_, _, hmark, hoptions, rfl⟩ := Layout.writes_append.mp hrest
    obtain rfl := hnull.mp hmark
    obtain ⟨clauses, hwritten, rfl⟩ := Layout.writes_concat.mp hoptions
    exact ⟨n, bare, nullable, text, clauses, hn, TypeName.bare_iff.mpr hsplit, htext,
      hclauses.mp hwritten, rfl⟩
  · rintro ⟨n, bare, nullable, text, clauses, hn, hbare, htext, hwritten, rfl⟩
    rw [columnLayout_eq (TypeName.bare_iff.mp hbare)]
    refine .part hn (.text _ (Layout.writes_ofExcept_cons.mpr ⟨text, _, htext, ?_, rfl⟩))
    exact .append (hnull.mpr rfl) (Layout.writes_concat.mpr ⟨clauses, hclauses.mpr hwritten, rfl⟩)

/-- A column is written when its options can be read and have a type. -/
theorem writes_column {e : Expr} :
    Writes c (column e) f ↔
      ∃ name given type, e = .list (name :: itemsOf given) ∧ (given.map (·.1)).Nodup ∧
        ("type", type) ∈ given ∧ Writes c (columnLayout name type given) f := by
  constructor
  · intro h
    unfold column at h
    split at h
    next name items =>
      obtain ⟨l, hl, hwrites⟩ := Layout.writes_ofExcept.mp h
      obtain ⟨given, hgiven, hlayout⟩ := bind_eq_ok.mp hl
      obtain ⟨rfl, hdistinct⟩ := options_eq_ok.mp hgiven
      split at hlayout
      next type htype =>
        cases hlayout
        obtain ⟨before, after, hsplit, -⟩ := List.lookup_eq_some_iff.mp htype
        refine ⟨name, given, type, rfl, hdistinct, ?_, hwrites⟩
        rw [hsplit]
        simp
      next => cases hlayout
    next => exact absurd h Layout.not_writes_refuse
  · rintro ⟨name, given, type, rfl, hdistinct, htype, hwrites⟩
    refine Layout.writes_ofExcept.mpr ⟨_, bind_eq_ok.mpr ⟨given, ?_, ?_⟩, hwrites⟩
    · exact options_eq_ok.mpr ⟨rfl, hdistinct⟩
    · rw [lookup_of_mem hdistinct htype]

/-- A column of the right form: a name and known options, none of them given twice, with a type
    among them. -/
structure Definition where
  name : Expr
  options : List (Key × Expr)
  type : Expr
  distinct : (options.map (·.1)).Nodup
  typed : (.type, type) ∈ options

namespace Definition

/-- The tree of a column. -/
def expr (d : Definition) : Expr :=
  .list (d.name :: d.options.flatMap fun o => [.keyword o.1.text, o.2])

/-- What has to hold of the trees of a column. -/
structure Valid (c : Compiler) (d : Definition) : Prop where
  name : c.Accepts d.name
  type : ∃ bare nullable text,
    TypeName.Bare d.type bare nullable ∧ TypeName.ofExpr bare = .ok text
  options : ∀ o ∈ d.options, Admits c o

/-- What a column is written as: its name, its type, whether a value is required, and what its
    options add in the order they are given. -/
def Written (c : Compiler) (d : Definition) (f : Fragments) : Prop :=
  ∃ name bare nullable type clauses, c.write d.name = .ok name ∧
    TypeName.Bare d.type bare nullable ∧ TypeName.ofExpr bare = .ok type ∧
    List.Forall₂ (Adds c) d.options clauses ∧
    f = .concat (name :: .ofText " " :: .ofText type ::
      (if nullable then .empty else .ofText " NOT NULL") :: clauses)

/-- A definition is written exactly when it is valid. -/
theorem exists_written_iff {d : Definition} : (∃ f, d.Written c f) ↔ d.Valid c := by
  constructor
  · rintro ⟨_, name, bare, nullable, type, clauses, hname, hbare, htype, hclauses, -⟩
    have hoptions : ∀ o ∈ d.options, Admits c o := fun o ho =>
      exists_adds_iff.mp (exists_forall₂_iff.mp ⟨clauses, hclauses⟩ o ho)
    exact ⟨⟨name, hname⟩, ⟨bare, nullable, type, hbare, htype⟩, hoptions⟩
  · rintro ⟨⟨name, hname⟩, ⟨bare, nullable, type, hbare, htype⟩, hoptions⟩
    obtain ⟨clauses, hclauses⟩ :=
      exists_forall₂_iff.mpr fun o ho => exists_adds_iff.mpr (hoptions o ho)
    exact ⟨_, name, bare, nullable, type, clauses, hname, hbare, htype, hclauses, rfl⟩

end Definition

/-- Options that are written are known ones. -/
theorem exists_known_options {given : List (String × Expr)} {clauses : List Fragments} :
    List.Forall₂ (fun o g => ∃ k : Key, k.text = o.1 ∧ Adds c (k, o.2) g) given clauses ↔
      ∃ known : List (Key × Expr), given = known.map (fun o => (o.1.text, o.2)) ∧
        List.Forall₂ (Adds c) known clauses := by
  constructor
  · intro h
    induction h with
    | nil => exact ⟨[], rfl, .nil⟩
    | @cons o _ _ _ ho _ ih =>
        obtain ⟨k, hk, hadds⟩ := ho
        obtain ⟨known, rfl, hknown⟩ := ih
        exact ⟨(k, o.2) :: known, by rw [List.map_cons, hk], .cons hadds hknown⟩
  · rintro ⟨known, rfl, h⟩
    rw [List.forall₂_map_left_iff]
    exact h.imp fun o _ hadds => ⟨o.1, rfl, hadds⟩

/-- A column is written when it has the right form, and then as this form is. -/
theorem writes_column_iff {e : Expr} :
    Writes c (column e) f ↔ ∃ d : Definition, d.expr = e ∧ d.Written c f := by
  have hkeys : ∀ known : List (Key × Expr),
      (known.map fun o => (o.1.text, o.2)).map (·.1) = (known.map (·.1)).map Key.text := by
    intro known
    simp
  have hitems : ∀ known : List (Key × Expr),
      itemsOf (known.map fun o => (o.1.text, o.2)) =
        known.flatMap fun o => [.keyword o.1.text, o.2] := by
    intro known
    exact List.flatMap_map ..
  rw [writes_column]
  constructor
  · -- Options are known to be among the six only because they were written.
    rintro ⟨name, given, type, rfl, hdistinct, htype, hwrites⟩
    obtain ⟨n, bare, nullable, text, clauses, hn, hbare, htext, hclauses, rfl⟩ :=
      writes_columnLayout.mp hwrites
    obtain ⟨known, rfl, hadds⟩ := exists_known_options.mp hclauses
    have hknown : (known.map (·.1)).Nodup := by
      rw [hkeys] at hdistinct
      exact List.Nodup.of_map _ hdistinct
    have htyped : (.type, type) ∈ known := by
      obtain ⟨⟨k, v⟩, hmem, heq⟩ := List.mem_map.mp htype
      obtain ⟨hk, rfl⟩ := Prod.mk.inj heq
      obtain rfl : k = .type := Key.text_injective hk
      exact hmem
    refine ⟨⟨name, known, type, hknown, htyped⟩, ?_, ?_⟩
    · exact congrArg (fun items => Expr.list (name :: items)) (hitems known).symm
    · exact ⟨n, bare, nullable, text, clauses, hn, hbare, htext, hadds, rfl⟩
  · rintro ⟨d, rfl, n, bare, nullable, text, clauses, hn, hbare, htext, hadds, rfl⟩
    refine ⟨d.name, d.options.map fun o => (o.1.text, o.2), d.type, ?_, ?_, ?_, ?_⟩
    · exact congrArg (fun items => Expr.list (d.name :: items)) (hitems d.options).symm
    · rw [hkeys]
      exact List.Nodup.map Key.text_injective d.distinct
    · exact List.mem_map.mpr ⟨_, d.typed, rfl⟩
    · exact writes_columnLayout.mpr ⟨n, bare, nullable, text, clauses, hn, hbare, htext,
        exists_known_options.mpr ⟨_, rfl, hadds⟩, rfl⟩

/-- **A column is accepted exactly when it is well formed.**  At the end of any sequence a tree is
    written as a column when it is one of the right form whose trees are valid, and then as its
    name and its type, with `NOT NULL` unless the type is a union with the null marker, and what
    its options add in the order they are given. -/
theorem column_accepted_iff_valid (c : Compiler) (e : Expr) (out : Fragments)
    (hout : Fragments.Built out) :
    ((∃ f, c.writeAtoms out (c.registry.atomsOf (column e)) = .ok f) ↔
      ∃ d : Definition, d.expr = e ∧ d.Valid c) ∧
    ∀ d : Definition, d.expr = e → d.Valid c →
      ∃ name bare nullable type clauses, c.write d.name = .ok name ∧
        TypeName.Bare d.type bare nullable ∧ TypeName.ofExpr bare = .ok type ∧
        List.Forall₂ (Adds c) d.options clauses ∧
        c.writeAtoms out (c.registry.atomsOf (column e)) =
          .ok (out ++ .concat (name :: .ofText " " :: .ofText type ::
            (if nullable then .empty else .ofText " NOT NULL") :: clauses)) := by
  refine ⟨⟨?_, ?_⟩, ?_⟩
  · rintro ⟨_, hf⟩
    obtain ⟨g, hg, rfl⟩ := (Layout.writeAtoms_eq_ok hout).mp hf
    obtain ⟨d, hd, hwritten⟩ := writes_column_iff.mp hg
    exact ⟨d, hd, Definition.exists_written_iff.mp ⟨g, hwritten⟩⟩
  · rintro ⟨d, hd, hvalid⟩
    obtain ⟨g, hwritten⟩ := Definition.exists_written_iff.mpr hvalid
    exact ⟨_, (Layout.writeAtoms_eq_ok hout).mpr
      ⟨g, writes_column_iff.mpr ⟨d, hd, hwritten⟩, rfl⟩⟩
  · intro d hd hvalid
    obtain ⟨g, hwritten⟩ := Definition.exists_written_iff.mpr hvalid
    have hwrite := (Layout.writeAtoms_eq_ok hout).mpr
      ⟨g, writes_column_iff.mpr ⟨d, hd, hwritten⟩, rfl⟩
    obtain ⟨name, bare, nullable, type, clauses, hname, hbare, htype, hclauses, rfl⟩ := hwritten
    exact ⟨name, bare, nullable, type, clauses, hname, hbare, htype, hclauses, hwrite⟩

/-- The type may come after other options, and its marker may be written in capitals. -/
theorem column_accepted_iff_valid_optional :
    let c : Compiler := { registry := .builtin }
    let type : Expr := .operation "or" [.keyword "DB-Null", .identifier "int"]
    let reference : Expr := .list [.list [.identifier "t", .identifier "b"], .keyword "cascade"]
    let column := column (.list [.identifier "a", .keyword "unique", .literal (.bool false),
      .keyword "primary-key", .identifier "yes", .keyword "type", type,
      .keyword "references", reference])
    Fragments.Built (.ofText "(") ∧
      (c.writeAtoms (.ofText "(") (c.registry.atomsOf column)).map Fragments.sql? =
        .ok (some "(a INT PRIMARY KEY REFERENCES t(b) ON DELETE CASCADE ON UPDATE RESTRICT") := by
  intro c type reference column
  have hout : Fragments.Built (.ofText "(") := .ofText "("
  let d : Definition :=
    { name := .identifier "a", type
      options := [(.unique, .literal (.bool false)), (.primaryKey, .identifier "yes"), (.type, type),
        (.references, reference)]
      distinct := by decide
      typed := by simp }
  have hbare : TypeName.Bare type (.identifier "int") true :=
    .nullable (.markerFirst ⟨"DB-Null", .inr rfl, by decide⟩)
  have htext : TypeName.ofExpr (.identifier "int") = .ok "INT" := rfl
  have hrefers : Refers c (.list [.identifier "t", .identifier "b"]) [.keyword "cascade"] _ :=
    .intro .columns (.onDelete (@ReferentialAction.ofExpr_eq_ok _ .cascade |>.mp rfl))
      (Compiler.write_identifier "t") (.cons (Compiler.write_identifier "b") .nil)
  have hclauses : List.Forall₂ (Adds c) d.options _ :=
    .cons (.notUnique ⟨_, .inl rfl, .inr rfl⟩) (.cons (.primaryKey (isTruthy_iff.mp rfl))
      (.cons .type (.cons (.references hrefers) .nil)))
  have hvalid : d.Valid c := Definition.exists_written_iff.mp
    ⟨_, _, _, _, _, _, Compiler.write_identifier "a", hbare, htext, hclauses, rfl⟩
  obtain ⟨-, hwritten⟩ := column_accepted_iff_valid c d.expr (.ofText "(") hout
  obtain ⟨name, bare, nullable, text, clauses, hname, hbare', htext', hclauses', hwrite⟩ :=
    hwritten d rfl hvalid
  obtain rfl := Except.ok.inj ((Compiler.write_identifier "a").symm.trans hname)
  obtain ⟨rfl, rfl⟩ := Prod.mk.inj ((TypeName.bare_iff.mp hbare).symm.trans
    (TypeName.bare_iff.mp hbare'))
  obtain rfl := Except.ok.inj (htext.symm.trans htext')
  obtain rfl := adds_rightUnique.forall₂ hclauses hclauses'
  obtain ⟨ha, hb, ht⟩ : Name.write false "a" = "a" ∧ Name.write false "b" = "b" ∧
      Name.write false "t" = "t" := by
    decide +kernel
  refine ⟨hout, (congrArg (Except.map Fragments.sql?) hwrite).trans ?_⟩
  simp only [c, ha, hb, ht]
  rfl

end Table
end SqlForms
