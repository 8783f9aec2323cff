import Mathlib.Data.List.Forall2
import SqlForms.Proofs.Canonical

/-! # What a layout writes

    A layout is written piece by piece, and what one piece writes does not
    depend on the pieces before it.  So a layout is written exactly when all
    of its pieces are, and as what they write, one after the other:
    `Layout.Writes` composes along the layout.

    Each way to put a layout together has one equivalence here, so that a
    form can be read from its layout without looking at how atoms are
    written.  Trees divided by a text (`writes_joined`) and layouts divided by
    a text (`writes_separated`) are what `Fragments.join` puts together. -/

namespace SqlForms

/-! ## Putting sequences together -/

namespace Fragments

/-- Sequences one after the other. -/
def concat (fs : List Fragments) : Fragments :=
  fs.foldr (· ++ ·) .empty

/-- Sequences with a text between each two. -/
def join (separator : String) : List Fragments → Fragments
  | [] => .empty
  | [f] => f
  | f :: fs => f ++ (.ofText separator ++ join separator fs)

@[simp] private theorem concat_nil : concat [] = .empty := rfl

@[simp] private theorem concat_cons (f : Fragments) (fs : List Fragments) :
    concat (f :: fs) = f ++ concat fs := rfl

end Fragments

namespace Compiler

/-- Whether a tree can be written. -/
def Accepts (c : Compiler) (e : Expr) : Prop :=
  ∃ f, c.write e = .ok f

variable {c : Compiler}

/-- A name is written as one text. -/
theorem write_identifier (n : String) :
    c.write (.identifier n) = .ok (.ofText (Name.write c.config.quoteNames n)) := by
  rw [write, writeInto, Registry.atoms_eq]
  rfl

/-- A keyword that is taken as a tree is written as a name. -/
theorem write_keyword (n : String) :
    c.write (.keyword n) = .ok (.ofText (Name.write c.config.quoteNames n)) := by
  rw [write, writeInto, Registry.atoms_eq]
  rfl

/-- Every name can be written. -/
@[simp] theorem accepts_identifier (n : String) : c.Accepts (.identifier n) :=
  ⟨_, write_identifier n⟩

/-- Every keyword can be written. -/
@[simp] theorem accepts_keyword (n : String) : c.Accepts (.keyword n) :=
  ⟨_, write_keyword n⟩

end Compiler

namespace Layout

open Fragments (Built)

variable {c : Compiler} {l l' : Layout} {f g : Fragments}

/-- Whether a layout is written, as the given sequence. -/
def Writes (c : Compiler) (l : Layout) (f : Fragments) : Prop :=
  c.writeAtoms .empty (c.registry.atomsOf l) = .ok f

/-- What a layout writes is built up from nothing. -/
theorem Writes.built (h : Writes c l f) : Built f :=
  Compiler.built_writeAtoms .empty h

/-- At the end of a sequence a layout adds what it writes on its own. -/
theorem writeAtoms_eq_ok {out : Fragments} (hout : Built out) :
    c.writeAtoms out (c.registry.atomsOf l) = .ok f ↔ ∃ g, Writes c l g ∧ f = out ++ g := by
  rw [Compiler.writeAtoms_eq_append hout, map_eq_ok]
  exact exists_congr fun g => and_congr_right fun _ => eq_comm

/-- A tree is written as its layout is. -/
theorem write_eq_ok {e : Expr} : c.write e = .ok f ↔ Writes c (c.registry.layoutOf e) f := by
  rw [Compiler.write, Compiler.writeInto, Registry.atoms_eq]
  rfl

/-- A refused tree fails before anything of it is written. -/
theorem write_of_refuse {e : Expr} {x : Error} (h : c.registry.layoutOf e = .refuse x) :
    c.write e = .error x := by
  rw [Compiler.write, Compiler.writeInto, Registry.atoms_eq, h]
  rfl

/-! ## Pieces -/

/-- No pieces write nothing. -/
@[simp] theorem writes_nil : Writes c [] f ↔ f = .empty := by
  constructor
  · intro h
    exact (Except.ok.inj h).symm
  · rintro rfl
    rfl

/-- Two layouts in a row write what the first writes, and then what the second writes. -/
@[simp] theorem writes_append :
    Writes c (l ++ l') f ↔ ∃ a b, Writes c l a ∧ Writes c l' b ∧ f = a ++ b := by
  rw [Writes, Registry.atomsOf_append, Compiler.writeAtoms_append, bind_eq_ok]
  constructor
  · rintro ⟨a, ha, h⟩
    obtain ⟨b, hb, rfl⟩ := (writeAtoms_eq_ok (Compiler.built_writeAtoms .empty ha)).mp h
    exact ⟨a, b, ha, hb, rfl⟩
  · rintro ⟨a, b, ha, hb, rfl⟩
    exact ⟨a, ha, (writeAtoms_eq_ok ha.built).mpr ⟨b, hb, rfl⟩⟩

/-- A text alone writes itself. -/
theorem writes_single_text {s : String} : Writes c [.text s] f ↔ f = .ofText s := by
  constructor
  · intro h
    exact (Except.ok.inj h).symm
  · rintro rfl
    rfl

/-- A tree alone writes what the tree does. -/
theorem writes_single_part {e : Expr} : Writes c [.part e] f ↔ c.write e = .ok f := by
  rw [Writes, Registry.atomsOf_part, Registry.atomsOf_nil, List.append_nil]
  rfl

/-- A text in front is written before the rest. -/
@[simp] theorem writes_text {s : String} :
    Writes c (.text s :: l) f ↔ ∃ g, Writes c l g ∧ f = .ofText s ++ g := by
  rw [← List.singleton_append, writes_append]
  simp only [writes_single_text, exists_and_left, exists_eq_left]

/-- A tree in front is written before the rest. -/
@[simp] theorem writes_part {e : Expr} :
    Writes c (.part e :: l) f ↔ ∃ a g, c.write e = .ok a ∧ Writes c l g ∧ f = a ++ g := by
  rw [← List.singleton_append, writes_append]
  simp only [writes_single_part]

/-- Layouts that are written are written one after the other. -/
theorem Writes.append (hl : Writes c l f) (hl' : Writes c l' g) : Writes c (l ++ l') (f ++ g) :=
  writes_append.mpr ⟨f, g, hl, hl', rfl⟩

theorem Writes.text (s : String) (h : Writes c l f) : Writes c (.text s :: l) (.ofText s ++ f) :=
  writes_text.mpr ⟨f, h, rfl⟩

theorem Writes.part {e : Expr} (he : c.write e = .ok f) (h : Writes c l g) :
    Writes c (.part e :: l) (f ++ g) :=
  writes_part.mpr ⟨f, g, he, h, rfl⟩

/-- A fault is never written. -/
@[simp] theorem not_writes_refuse {x : Error} : ¬ Writes c (refuse x) f := by
  intro h
  cases h

/-- A text that may have failed is written when it has not. -/
@[simp] theorem writes_ofExcept_cons {x : Except Error String} :
    Writes c (Piece.ofExcept x :: l) f ↔ ∃ s g, x = .ok s ∧ Writes c l g ∧ f = .ofText s ++ g := by
  cases x with
  | ok s => simp [Piece.ofExcept]
  | error x =>
      rw [← List.singleton_append, writes_append]
      constructor
      · rintro ⟨_, _, h, -⟩
        exact absurd h not_writes_refuse
      · rintro ⟨_, _, h, -⟩
        cases h

/-- A layout that may have failed is written when it has not. -/
@[simp] theorem writes_ofExcept {x : Except Error Layout} :
    Writes c (ofExcept x) f ↔ ∃ l, x = .ok l ∧ Writes c l f := by
  cases x with
  | ok l => simp [ofExcept]
  | error x => simp [ofExcept]

/-! ## Rows -/

/-- Layouts in a row write what each of them writes. -/
theorem writes_concat {ls : List Layout} :
    Writes c (concat ls) f ↔ ∃ fs, List.Forall₂ (Writes c) ls fs ∧ f = .concat fs := by
  induction ls generalizing f with
  | nil => simp [concat]
  | cons l ls ih =>
      show Writes c (l ++ concat ls) f ↔ _
      rw [writes_append]
      constructor
      · rintro ⟨a, b, ha, hb, rfl⟩
        obtain ⟨fs, hfs, rfl⟩ := ih.mp hb
        exact ⟨a :: fs, .cons ha hfs, rfl⟩
      · rintro ⟨fs, hfs, rfl⟩
        cases hfs with
        | cons ha hfs => exact ⟨_, _, ha, ih.mpr ⟨_, hfs, rfl⟩, rfl⟩

/-- Layouts divided by a text write what each of them writes, divided by the text. -/
theorem writes_separated {separator : String} {ls : List Layout} :
    Writes c (separated separator ls) f ↔
      ∃ fs, List.Forall₂ (Writes c) ls fs ∧ f = .join separator fs := by
  induction ls generalizing f with
  | nil => simp [separated, Fragments.join]
  | cons l ls ih =>
      cases ls with
      | nil =>
          constructor
          · intro h
            exact ⟨[f], .cons h .nil, rfl⟩
          · rintro ⟨fs, hfs, rfl⟩
            cases hfs with
            | cons ha hfs =>
                cases hfs
                exact ha
      | cons l' ls =>
          -- Only between two layouts does the text stand, so the tail is taken as a whole.
          show Writes c (l ++ .text separator :: separated separator (l' :: ls)) f ↔ _
          simp only [writes_append, writes_text]
          constructor
          · rintro ⟨a, _, ha, ⟨b, hb, rfl⟩, rfl⟩
            obtain ⟨fs, hfs, rfl⟩ := ih.mp hb
            cases hfs with
            | cons hg hfs => exact ⟨_, .cons ha (.cons hg hfs), rfl⟩
          · rintro ⟨fs, hfs, rfl⟩
            cases hfs with
            | cons ha hfs =>
                cases hfs with
                | cons hg hfs => exact ⟨_, _, ha, ⟨_, ih.mpr ⟨_, .cons hg hfs, rfl⟩, rfl⟩, rfl⟩

/-- Joining trees is separating layouts of one tree each. -/
theorem joined_eq_separated (separator : String) (es : List Expr) :
    joined separator es = separated separator (es.map fun e => [.part e]) := by
  induction es with
  | nil => rfl
  | cons e es ih =>
      cases es with
      | nil => rfl
      | cons e' es =>
          show .part e :: .text separator :: joined separator (e' :: es) = _
          rw [ih]
          rfl

/-- Trees divided by a text write what each of them writes, divided by the text. -/
theorem writes_joined {separator : String} {es : List Expr} :
    Writes c (joined separator es) f ↔
      ∃ fs, List.Forall₂ (fun e g => c.write e = .ok g) es fs ∧ f = .join separator fs := by
  rw [joined_eq_separated, writes_separated]
  simp only [List.forall₂_map_left_iff, writes_single_part]

/-- Trees in parentheses write what each of them writes, divided by commas. -/
theorem writes_parentheses {es : List Expr} :
    Writes c (concat [["("], joined ", " es, [")"]]) f ↔
      ∃ fs, List.Forall₂ (fun e g => c.write e = .ok g) es fs ∧
        f = .concat [.ofText "(", .join ", " fs, .ofText ")"] := by
  show Writes c (.text "(" :: (joined ", " es ++ [.text ")"])) f ↔ _
  constructor
  · intro h
    obtain ⟨_, hlist, rfl⟩ := writes_text.mp h
    obtain ⟨_, _, hjoined, hclose, rfl⟩ := writes_append.mp hlist
    obtain ⟨fs, hfs, rfl⟩ := writes_joined.mp hjoined
    obtain rfl := writes_single_text.mp hclose
    exact ⟨fs, hfs, rfl⟩
  · rintro ⟨fs, hfs, rfl⟩
    exact .text _ (.append (writes_joined.mpr ⟨fs, hfs, rfl⟩) (writes_single_text.mpr rfl))

end Layout

/-- A row stands in a relation to some row when each of its items does to some item. -/
theorem exists_forall₂_iff {α β : Type} {R : α → β → Prop} {xs : List α} :
    (∃ ys, List.Forall₂ R xs ys) ↔ ∀ x ∈ xs, ∃ y, R x y := by
  induction xs with
  | nil => simp
  | cons x xs ih =>
      rw [List.forall_mem_cons, ← ih]
      constructor
      · rintro ⟨_, h⟩
        cases h with
        | cons hx hxs => exact ⟨⟨_, hx⟩, _, hxs⟩
      · rintro ⟨⟨_, hx⟩, _, hxs⟩
        exact ⟨_, .cons hx hxs⟩

/-- A list of trees can be written when they all can. -/
theorem Compiler.accepts_list {c : Compiler} {e : Expr} {es : List Expr} :
    c.Accepts (.list (e :: es)) ↔ ∀ x ∈ e :: es, c.Accepts x := by
  have hlayout : ∀ f, c.write (.list (e :: es)) = .ok f ↔ _ := fun f =>
    Layout.write_eq_ok.trans (@Layout.writes_parentheses c f (e :: es))
  rw [Accepts, exists_congr hlayout]
  constructor
  · rintro ⟨_, fs, hfs, -⟩
    exact exists_forall₂_iff.mp ⟨fs, hfs⟩
  · intro h
    obtain ⟨fs, hfs⟩ := exists_forall₂_iff.mpr h
    exact ⟨_, fs, hfs, rfl⟩

end SqlForms
