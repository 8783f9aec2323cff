import SqlForms.Proofs.Registered

/-! # Trees in the place of placeholders

    A placeholder can be replaced by a tree before the statement is written.
    What is put in its place is inert: neither a keyword, which would mark a
    clause, nor a list, whose items a form would look at.

    Only one thing in a statement depends on a placeholder without writing
    it: an option of a column that is there or not by the truth of its value.
    `Expr.flags` collects these values. -/

namespace SqlForms

namespace Expr

mutual

/-- A tree with another tree in the place of every placeholder. -/
def subst (f : Placeholder → Expr) : Expr → Expr
  | .placeholder p => f p
  | .operation tag operands => .operation tag (substAll f operands)
  | .list items => .list (substAll f items)
  | e => e

/-- Trees with another tree in the place of every placeholder. -/
def substAll (f : Placeholder → Expr) : List Expr → List Expr
  | [] => []
  | e :: es => subst f e :: substAll f es

end

/-- Trees are replaced one by one. -/
@[simp] theorem substAll_eq_map (f : Placeholder → Expr) (es : List Expr) :
    substAll f es = es.map (subst f) := by
  induction es with
  | nil => rfl
  | cons e es ih => rw [substAll, ih, List.map_cons]

theorem isKeyword_eq (name : String) (e : Expr) :
    e.isKeyword name = (e.keyword? == some name) := by
  cases e <;> rfl

/-- Whether a tree is neither a keyword nor a list. -/
def isInert : Expr → Bool
  | .keyword _ => false
  | .list _ => false
  | _ => true

section Inert

variable {f : Placeholder → Expr} (hf : ∀ p, (f p).isInert)

include hf

/-- A tree is a keyword before replacing exactly when it is one after. -/
theorem keyword?_subst (e : Expr) : (e.subst f).keyword? = e.keyword? := by
  cases e with
  | placeholder p =>
      have := hf p
      rw [subst]
      cases hp : f p <;> simp_all [isInert, keyword?]
  | _ => rfl

theorem isKeyword_subst (name : String) (e : Expr) :
    (e.subst f).isKeyword name = e.isKeyword name := by
  rw [isKeyword_eq, isKeyword_eq, keyword?_subst hf]

end Inert

/-! ## Trees without placeholders of their own -/

/-- A symbol stays as it is. -/
theorem subst_of_symbol? {f : Placeholder → Expr} {e : Expr} (h : e.symbol?.isSome) :
    e.subst f = e := by
  cases e with
  | identifier name => rfl
  | keyword name => rfl
  | _ => cases h

/-- A text stays as it is. -/
theorem subst_of_text? {f : Placeholder → Expr} {e : Expr} (h : e.text?.isSome) :
    e.subst f = e := by
  cases e with
  | literal v => rfl
  | quoted v => rfl
  | _ => cases h

/-! ## Values that are only tested -/

end Expr

namespace Table

/-- The values of the options that are there or not by the truth of their value. -/
def optionFlags : List Expr → List Expr
  | key :: value :: rest =>
      if key.isKeyword "primary-key" || key.isKeyword "unique" then value :: optionFlags rest
      else optionFlags rest
  | _ => []

/-- Such values in the definition of a column. -/
def columnFlags : Expr → List Expr
  | .list (_ :: items) => optionFlags items
  | _ => []

/-- Such values in the definition of a table. -/
def tableFlags : List Expr → List Expr
  | _ :: .list columns :: _ => columns.flatMap columnFlags
  | _ => []

end Table

namespace Expr

mutual

/-- The values in a tree that are tested and not written: those of the options `:primary-key` and
    `:unique` of the columns of every table it defines. -/
def flags : Expr → List Expr
  | .operation tag operands =>
      (if tag = "create-table" then Table.tableFlags operands else []) ++ flagsAll operands
  | .list items => flagsAll items
  | _ => []

/-- The values in trees that are tested and not written. -/
def flagsAll : List Expr → List Expr
  | [] => []
  | e :: es => flags e ++ flagsAll es

end

/-- The tested values of a tree are among those of the trees around it. -/
theorem flags_subset_flagsAll {es : List Expr} {e : Expr} (h : e ∈ es) :
    e.flags ⊆ flagsAll es := by
  induction es with
  | nil => cases h
  | cons x xs ih =>
      rw [flagsAll]
      rcases List.mem_cons.mp h with rfl | h
      · exact List.subset_append_left _ _
      · exact List.Subset.trans (ih h) (List.subset_append_right _ _)

/-- The tested values of a tree that is reached are among those of the operands. -/
theorem flags_subset_of_reach {es : List Expr} {e : Expr} (h : Reach es e) :
    e.flags ⊆ flagsAll es := by
  induction h with
  | operand hm => exact flags_subset_flagsAll hm
  | @item items e _ hm ih =>
      rw [flags] at ih
      exact List.Subset.trans (flags_subset_flagsAll hm) ih

/-- Putting true values in the place of placeholders does not change a test. -/
theorem isTruthy_subst {f : Placeholder → Expr} {e : Expr}
    (h : ∀ p, e = .placeholder p → (f p).isTruthy) : (e.subst f).isTruthy = e.isTruthy := by
  cases e with
  | placeholder p => rw [subst, h p rfl]; rfl
  | _ => rfl

end Expr

/-! ## Layouts -/

/-- A piece with another tree in the place of every placeholder of its operand. -/
def Piece.subst (f : Placeholder → Expr) : Piece → Piece
  | .part e => .part (e.subst f)
  | p => p

namespace Layout

/-- A layout with another tree in the place of every placeholder of its operands. -/
def subst (f : Placeholder → Expr) (l : Layout) : Layout :=
  l.map (Piece.subst f)

variable {f : Placeholder → Expr}

@[simp] private theorem subst_nil : subst f [] = [] := rfl

@[simp] private theorem subst_atom (a : Atom) (l : Layout) :
    subst f (.atom a :: l) = .atom a :: subst f l := rfl

@[simp] private theorem subst_part (e : Expr) (l : Layout) :
    subst f (.part e :: l) = .part (e.subst f) :: subst f l := rfl

/-- Layouts one after the other are replaced one after the other. -/
@[simp] theorem subst_append (l l' : Layout) : subst f (l ++ l') = subst f l ++ subst f l' :=
  List.map_append

@[simp] private theorem subst_ofExcept (x : Except Error String) (l : Layout) :
    subst f (.ofExcept x :: l) = .ofExcept x :: subst f l := by
  cases x <;> rfl

@[simp] private theorem subst_joined (separator : String) (es : List Expr) :
    subst f (joined separator es) = joined separator (es.map (Expr.subst f)) := by
  fun_induction joined separator es with
  | case1 => rfl
  | case2 e => rfl
  | case3 e es hne ih =>
      cases es with
      | nil => exact absurd rfl hne
      | cons x xs => simp [ih, joined]

@[simp] private theorem subst_separated (separator : String) (ls : List Layout) :
    subst f (separated separator ls) = separated separator (ls.map (subst f)) := by
  fun_induction separated separator ls with
  | case1 => rfl
  | case2 l => rfl
  | case3 l ls hne ih =>
      cases ls with
      | nil => exact absurd rfl hne
      | cons x xs => simp [ih, separated]

@[simp] private theorem subst_leading (lead : String) (o : Option Expr) :
    subst f (leading lead o) = leading lead (o.map (Expr.subst f)) := by
  cases o <;> rfl

@[simp] private theorem subst_leadingAll (lead : String) (o : Option (List Expr)) :
    subst f (leadingAll lead o) = leadingAll lead (o.map (·.map (Expr.subst f))) := by
  cases o <;> simp [leadingAll]

@[simp] private theorem subst_concat (ls : List Layout) :
    subst f (concat ls) = concat (ls.map (subst f)) := by
  rw [concat, concat, subst, List.map_flatten]
  rfl

@[simp] theorem subst_parenthesized (es : List Expr) :
    subst f (parenthesized es) = parenthesized (es.map (Expr.subst f)) := by
  cases es <;> simp [parenthesized]

end Layout

/-! ## Clauses -/

/-- Looking up a key after a function was applied to the values. -/
theorem lookup_map_snd {α β : Type} (g : α → β) (k : String) (l : List (String × α)) :
    (l.map fun m => (m.1, g m.2)).lookup k = (l.lookup k).map g := by
  induction l with
  | nil => rfl
  | cons m l ih =>
      rw [List.map_cons, List.lookup_cons, List.lookup_cons]
      cases k == m.1 with
      | true => rfl
      | false => exact ih

/-- Clauses with a function applied to their operands. -/
def Bound.map (g : Expr → Expr) (b : Bound) : Bound :=
  List.map (fun m => (m.1, m.2.map g)) b

namespace Bound

variable {g : Expr → Expr} {b : Bound}

@[simp] theorem get?_map (marker : String) :
    (b.map g).get? marker = (b.get? marker).map (·.map g) :=
  lookup_map_snd _ marker b

@[simp] theorem has_map (marker : String) : (b.map g).has marker = b.has marker := by
  simp [has]

@[simp] private theorem single?_map (marker : String) :
    (b.map g).single? marker = (b.single? marker).map g := by
  cases h : b.get? marker <;> simp [single?, h]

end Bound

namespace Clause

variable {g : Expr → Expr} (hg : ∀ e, (g e).keyword? = e.keyword?)

private theorem miscount?_map (c : Clause) (es : List Expr) :
    c.miscount? (es.map g) = c.miscount? es := by
  rcases es with _ | ⟨x, _ | ⟨y, es⟩⟩ <;> cases hp : c.presence.isFlag <;>
    simp [miscount?, hp]

include hg

private theorem marks_map (clauses : List Clause) (e : Expr) :
    marks clauses (g e) = marks clauses e := by
  rw [marks, marks, hg]

/-- A clause comes next in mapped operands as in the operands. -/
theorem after?_map (c : Clause) (es : List Expr) :
    c.after? (es.map g) = (c.after? es).map (·.map g) := by
  cases es with
  | nil => rfl
  | cons e es =>
      have hk : (g e).isKeyword c.marker = e.isKeyword c.marker := by
        rw [Expr.isKeyword_eq, Expr.isKeyword_eq, hg]
      rw [List.map_cons, after?, after?, hk]
      split <;> rfl

/-- The content of a clause is mapped with the operands. -/
theorem content_map (later : List Clause) (body : List Expr) :
    content later (body.map g) = (content later body).map g := by
  rw [content, content, List.takeWhile_map]
  congr 2
  funext e
  exact congrArg _ (marks_map hg later e)

/-- So is what remains after it. -/
theorem remainder_map (later : List Clause) (body : List Expr) :
    remainder later (body.map g) = (remainder later body).map g := by
  rw [remainder, remainder, List.dropWhile_map]
  congr 2
  funext e
  exact congrArg _ (marks_map hg later e)

/-- A clause keeps its operands when a function that keeps keywords is applied to them all. -/
theorem take_map {operator : String} {c : Clause} {later : List Clause} {body : List Expr}
    {next : List Expr → Except Error Bound} {b : Bound}
    (hn : ∀ {es b}, next es = .ok b → next (es.map g) = .ok (b.map g))
    (h : c.take operator later body next = .ok b) :
    c.take operator later (body.map g) next = .ok (b.map g) := by
  obtain ⟨hc, rest, hr, rfl⟩ := take_eq_ok.mp h
  refine take_eq_ok.mpr ⟨?_, rest.map g, ?_, ?_⟩
  · rw [content_map hg, miscount?_map, hc]
  · rw [remainder_map hg]
    exact hn hr
  · rw [content_map hg]
    rfl

/-- Clauses are read from mapped operands as from the operands. -/
theorem readFrom_map {operator : String} {clauses : List Clause} {es : List Expr} {b : Bound}
    (h : readFrom operator clauses es = .ok b) :
    readFrom operator clauses (es.map g) = .ok (b.map g) := by
  induction clauses generalizing es b with
  | nil =>
      cases es with
      | nil => cases h; rfl
      | cons e es => cases h
  | cons c later ih =>
      rw [readFrom] at h ⊢
      rw [after?_map hg]
      cases ha : c.after? es with
      | some body =>
          rw [ha] at h
          exact take_map hg ih h
      | none =>
          rw [ha] at h
          simp only [Option.map_none] at h ⊢
          split at h
          · cases h
          next hp => rw [if_neg hp]; exact ih h

/-- Mapped operands are split as the operands are. -/
theorem split_map {operator : String} {clauses : List Clause} {es : List Expr} {b : Bound}
    (h : split operator clauses es = .ok b) :
    split operator clauses (es.map g) = .ok (b.map g) := by
  cases es with
  | nil => exact readFrom_map hg h
  | cons e es =>
      rw [split] at h
      rw [List.map_cons, split, marks_map hg]
      split at h
      next hm => rw [if_pos hm]; exact readFrom_map hg h
      next => cases h

/-- So they are with operands before the first clause. -/
theorem splitLeading_map {operator : String} {clauses : List Clause} {es : List Expr} {b : Bound}
    (h : splitLeading operator clauses es = .ok b) :
    splitLeading operator clauses (es.map g) = .ok (b.map g) := by
  cases clauses with
  | nil => exact readFrom_map hg h
  | cons c later => exact take_map hg (readFrom_map hg) h

end Clause
end SqlForms
