import SqlForms.Proofs.Writing
import SqlForms.Proofs.Lexical.Forms
import SqlForms.Proofs.Lexical.Spelling

/-! # How a statement is read

    A statement without raw text is read as it was meant: each of its atoms
    is read on its own, whatever the values, names and types in it hold.  What
    a tree is read as is its *frame*, the tokens of its atoms with a hole for
    each slot (`Compiler.frame`).

    A tree is read as its frame, with whatever its slots are filled with in
    the holes (`Compiler.framed_tree`).  The step is a layout: it closes what
    it opens, so it is a part if its operands are (`framed_of_closes`).  From
    it the tree follows by induction along its layouts. -/

namespace SqlForms

open Lexical

/-! ## Trees without raw text -/

namespace Expr

mutual

/-- Whether a tree holds no raw value and no operation that writes its operand as it is. -/
def rawFree : Expr → Bool
  | .literal v => v.rawFree
  | .quoted v => v.rawFree
  | .operation tag operands => tag != "raw" && rawFreeAll operands
  | .list items => rawFreeAll items
  | .identifier _ => true
  | .placeholder _ => true
  | .keyword _ => true

/-- Whether trees hold no raw value and no operation that writes its operand as it is. -/
def rawFreeAll : List Expr → Bool
  | [] => true
  | e :: es => rawFree e && rawFreeAll es

end

private theorem rawFree_of_mem {es : List Expr} (h : rawFreeAll es) {e : Expr} (he : e ∈ es) :
    e.rawFree := by
  induction es with
  | nil => cases he
  | cons x xs ih =>
      rw [rawFreeAll, Bool.and_eq_true] at h
      rcases List.mem_cons.mp he with rfl | he
      · exact h.1
      · exact ih h.2 he

/-- What a form reaches in trees without raw text has none. -/
theorem rawFree_of_reach {es : List Expr} (h : rawFreeAll es) {e : Expr} (he : Reach es e) :
    e.rawFree := by
  induction he with
  | operand hm => exact rawFree_of_mem h hm
  | item _ hm ih =>
      rw [rawFree] at ih
      exact rawFree_of_mem ih hm

/-- The trees in the layout of a tree without raw text have none either. -/
theorem rawFree_of_part_mem {r : Registry} {e x : Expr} (h : e.rawFree)
    (hx : .part x ∈ r.layoutOf e) : x.rawFree := by
  obtain ⟨es, rfl | ⟨tag, rfl⟩, hr⟩ := Registry.reach_of_part_mem hx
  · rw [rawFree] at h
    exact rawFree_of_reach h hr
  · rw [rawFree, Bool.and_eq_true] at h
    exact rawFree_of_reach h.2 hr

end Expr

/-! ## Filled slots -/

namespace Mark

/-- Whether characters are a row of marks with such texts in its slots. -/
inductive Filled (P : List Char → Prop) : List Mark → List Char → Prop where
  | nil : Filled P [] []
  | char {c : Char} {ms : List Mark} {cs : List Char} :
      Filled P ms cs → Filled P (.char c :: ms) (c :: cs)
  | slot {p : Placeholder} {text : List Char} {ms : List Mark} {cs : List Char} :
      P text → Filled P ms cs → Filled P (.slot p :: ms) (text ++ cs)

variable {P : List Char → Prop}

/-- More texts may stand in the slots. -/
theorem Filled.mono {Q : List Char → Prop} (hPQ : ∀ text, P text → Q text) {ms : List Mark}
    {cs : List Char} (h : Filled P ms cs) : Filled Q ms cs := by
  induction h with
  | nil => exact .nil
  | char _ ih => exact .char ih
  | slot ht _ ih => exact .slot (hPQ _ ht) ih

/-- Text has no slots to fill. -/
theorem filled_ofChars (cs : List Char) : Filled P (ofChars cs) cs := by
  induction cs with
  | nil => exact .nil
  | cons c cs ih => exact .char ih

/-- Text is its one filling. -/
theorem Filled.eq_of_ofChars {cs cs' : List Char} (h : Filled P (ofChars cs) cs') : cs' = cs := by
  induction cs generalizing cs' with
  | nil => cases h; rfl
  | cons c cs ih =>
      cases h with
      | char h => rw [ih h]

/-- A filling of two rows is a filling of each. -/
theorem Filled.split {ms ms' : List Mark} {cs : List Char} (h : Filled P (ms ++ ms') cs) :
    ∃ x y, Filled P ms x ∧ Filled P ms' y ∧ cs = x ++ y := by
  induction ms generalizing cs with
  | nil => exact ⟨[], cs, .nil, h, rfl⟩
  | cons m ms ih =>
      cases h with
      | char h =>
          obtain ⟨x, y, hx, hy, rfl⟩ := ih h
          exact ⟨_, y, .char hx, hy, rfl⟩
      | slot ht h =>
          obtain ⟨x, y, hx, hy, rfl⟩ := ih h
          exact ⟨_, y, .slot ht hx, hy, by rw [List.append_assoc]⟩

/-- Numbering the slots fills them with parameters. -/
theorem filled_number (n : Nat) (ms : List Mark) :
    Filled (fun text => ∃ n, text = '$' :: Nat.toDigits 10 n) ms (number n ms) := by
  induction ms generalizing n with
  | nil => exact .nil
  | cons m ms ih =>
      cases m with
      | char c => exact .char (ih n)
      | slot p => exact .slot ⟨n, rfl⟩ (ih (n + 1))

/-- Filling the slots with values fills them with the texts of the values. -/
theorem filled_fill {d : Dialect} {ms : List Mark} {vs : List Value} {cs : List Char}
    (hlen : vs.length = (slots ms).length) (h : fill d ms vs = .ok cs) :
    Filled (fun text => ∃ v ∈ vs, ∃ s, v.sql d = .ok s ∧ text = s.toList) ms cs := by
  induction ms generalizing vs cs with
  | nil =>
      cases h
      exact .nil
  | cons m ms ih =>
      cases m with
      | char c =>
          obtain ⟨rest, hrest, rfl⟩ := map_eq_ok.mp h
          exact .char (ih hlen hrest)
      | slot p =>
          cases vs with
          | nil => cases hlen
          | cons v vs =>
              obtain ⟨s, hs, h⟩ := bind_eq_ok.mp h
              obtain ⟨rest, hrest, h⟩ := bind_eq_ok.mp h
              cases h
              have hfilled := ih (by simpa using hlen) hrest
              refine .slot ⟨v, List.mem_cons_self, s, hs, rfl⟩ (hfilled.mono ?_)
              rintro text ⟨u, hu, hs⟩
              exact ⟨u, List.mem_cons_of_mem _ hu, hs⟩

/-- Values that can be written fill any slots. -/
theorem exists_fill (d : Dialect) (ms : List Mark) {vs : List Value}
    (h : ∀ v ∈ vs, ∃ s, v.sql d = .ok s) : ∃ cs, fill d ms vs = .ok cs := by
  induction ms generalizing vs with
  | nil => exact ⟨[], rfl⟩
  | cons m ms ih =>
      cases m with
      | char c =>
          obtain ⟨cs, hcs⟩ := ih h
          exact ⟨c :: cs, by rw [fill, hcs]; rfl⟩
      | slot p =>
          cases vs with
          | nil => exact ih h
          | cons v vs =>
              obtain ⟨s, hs⟩ := h v List.mem_cons_self
              obtain ⟨cs, hcs⟩ := ih fun x hx => h x (List.mem_cons_of_mem _ hx)
              exact ⟨s.toList ++ cs, by rw [fill, hs, hcs]; rfl⟩

end Mark

/-! ## Frames -/

/-- What may stand in the slots of a statement and how the statement is looked at: such texts are
    parts, and they all look the same. -/
structure Filling (d : Dialect) (α : Type) where
  isText : List Char → Prop
  view : Token → List α
  hole : List α
  part_of_isText {text : List Char} :
    isText text → ∃ ts, Part d text ts ∧ ts.flatMap view = hole

namespace Filling

/-- Any parts, without a look at them. -/
def parts (d : Dialect) : Filling d Empty where
  isText cs := ∃ ts, Part d cs ts
  view _ := []
  hole := []
  part_of_isText := by
    rintro text ⟨ts, h⟩
    exact ⟨ts, h, by simp⟩

/-- Strings, each of which looks like one mark. -/
def strings (d : Dialect) : Filling d (Option Char) where
  isText cs := ∃ content, Part d cs [.string content]
  view := Token.skeleton
  hole := [none]
  part_of_isText := by
    rintro text ⟨content, h⟩
    exact ⟨_, h, rfl⟩

end Filling

/-- What an atom is read as, with a hole for a slot. -/
def Config.tokens (c : Config) : Atom → List (Option Token)
  | .text s => (textTokens s.toList).map some
  | .name n => (nameTokens c.quoteNames n.toList).map some
  | .literal v => (v.tokens c.strings).map some
  | .slot _ => [none]
  | .chosen _ => []
  | .refuse _ => []

namespace Compiler

/-- What atoms are read as, with holes for the slots. -/
def frame (c : Compiler) (as : List Atom) : List (Option Token) :=
  as.flatMap c.config.tokens

variable {c : Compiler} {α : Type} {F : Filling c.config.strings α}

/-- Tokens look like a frame if they are seen as it is, with the holes as the filling says. -/
def Looks (F : Filling c.config.strings α) (frame : List (Option Token)) (ts : List Token) : Prop :=
  ts.flatMap F.view = frame.flatMap fun o => o.elim F.hole F.view

private theorem looks_some (ts : List Token) : Looks F (ts.map some) ts := by
  rw [Looks, List.flatMap_map]
  rfl

/-- Rows of tokens look like frames one after the other. -/
theorem Looks.append {f f' : List (Option Token)} {ts ts' : List Token} (h : Looks F f ts)
    (h' : Looks F f' ts') : Looks F (f ++ f') (ts ++ ts') := by
  rw [Looks, List.flatMap_append, List.flatMap_append, h, h']

/-- Whether what atoms write, with the slots filled, is a part that looks like their frame. -/
def Framed (F : Filling c.config.strings α) (as : List Atom) : Prop :=
  ∀ ms cs, c.marks as = .ok ms → Mark.Filled F.isText ms cs →
    ∃ ts, Part c.config.strings cs ts ∧ Looks F (c.frame as) ts

/-- Text that is written for an atom is its one filling. -/
theorem eq_of_filled {P : List Char → Prop} {a : Atom} {text cs : List Char} {ms : List Mark}
    (ha : c.atomMarks a = .ok (Mark.ofChars text)) (hm : c.marks [a] = .ok ms)
    (hf : Mark.Filled P ms cs) : cs = text := by
  rw [marks, ha] at hm
  obtain rfl : Mark.ofChars text = ms := by
    simpa [marks] using hm
  exact hf.eq_of_ofChars

/-- A name is framed. -/
theorem framed_name (n : String) : Framed F [.name n] := by
  intro ms cs hm hf
  rw [eq_of_filled rfl hm hf, Name.write, String.toList_ofList, frame, List.flatMap_singleton]
  exact ⟨_, part_name _ _, looks_some _⟩

/-- A constant without raw text is framed. -/
theorem framed_literal {v : Value} (hv : v.rawFree) : Framed F [.literal v] := by
  intro ms cs hm hf
  obtain ⟨x, hx, -⟩ := bind_eq_ok.mp hm
  obtain ⟨s, hs, rfl⟩ := map_eq_ok.mp hx
  rw [eq_of_filled hx hm hf, frame, List.flatMap_singleton]
  obtain ⟨l, hl, rfl⟩ := map_eq_ok.mp hs
  exact ⟨_, v.part_literal hv hl, looks_some _⟩

/-- A slot is framed, since what fills it is a part. -/
theorem framed_slot (p : Placeholder) : Framed F [.slot p] := by
  intro ms cs hm hf
  cases hmode : c.mode with
  | static =>
      rw [marks, atomMarks, hmode] at hm
      cases hm
  | deferred =>
      rw [marks, atomMarks, hmode] at hm
      cases hm
      cases hf with
      | slot ht hrest =>
          cases hrest
          obtain ⟨ts, hpart, hview⟩ := F.part_of_isText ht
          refine ⟨ts, by rwa [List.append_nil], ?_⟩
          rw [Looks, hview]
          exact (List.append_nil _).symm

/-- A layout of texts, names and operands that are framed is read as the check says. -/
theorem reading_of_framed {l : Layout}
    (hl : ∀ x, .atom x ∈ l → (∃ t, x = .text t) ∨ ∃ n, x = .name n)
    (hparts : ∀ e, .part e ∈ l → Framed F (c.registry.atoms e))
    {ms : List Mark} (hm : c.marks (c.registry.atomsOf l) = .ok ms) {cs : List Char}
    (hf : Mark.Filled F.isText ms cs) :
    ∃ ts, l.Reading c.config.strings cs ts ∧ Looks F (c.frame (c.registry.atomsOf l)) ts := by
  induction l generalizing ms cs with
  | nil =>
      cases hm
      cases hf
      exact ⟨[], Layout.reading_nil, rfl⟩
  | cons p l ih =>
      have hsplit : c.registry.atomsOf (p :: l) =
          c.registry.atomsOf [p] ++ c.registry.atomsOf l := by
        cases p <;> simp
      rw [hsplit] at hm ⊢
      -- What is written falls into what the first piece and what the others write, and so does
      -- what the slots are filled with.
      obtain ⟨x, y, hx, hy, rfl⟩ := marks_append_eq_ok.mp hm
      obtain ⟨u, v, hu, hv, rfl⟩ := hf.split
      obtain ⟨ts', hreads', hlooks'⟩ := ih (fun x hx => hl x (List.mem_cons_of_mem _ hx))
        (fun e he => hparts e (List.mem_cons_of_mem _ he)) hy hv
      have hfirst : ∃ ts, Layout.Reading c.config.strings [p] u ts ∧
          Looks F (c.frame (c.registry.atomsOf [p])) ts := by
        cases p with
        | part e =>
            rw [Registry.atomsOf_part, Registry.atomsOf_nil, List.append_nil] at hx ⊢
            obtain ⟨ts, hpart, hlooks⟩ := hparts e List.mem_cons_self x u hx hu
            exact ⟨ts, Layout.reading_part hpart, hlooks⟩
        | atom a =>
            rcases hl a List.mem_cons_self with ⟨t, rfl⟩ | ⟨n, rfl⟩
            · rw [eq_of_filled rfl hx hu]
              refine ⟨_, Layout.reading_text t, ?_⟩
              rw [Registry.atomsOf_atom, Registry.atomsOf_nil, frame, List.flatMap_singleton]
              exact looks_some _
            · obtain ⟨ts, hpart, hlooks⟩ := framed_name n x u hx hu
              exact ⟨ts, Layout.reading_name hpart, hlooks⟩
      obtain ⟨ts, hreads, hlooks⟩ := hfirst
      refine ⟨ts ++ ts', hreads.append hreads', ?_⟩
      rw [frame, List.flatMap_append]
      exact hlooks.append hlooks'

/-- A layout that closes what it opens is framed if its operands are. -/
theorem framed_of_closes {l : Layout}
    (hl : l.Clean → l.Closes) (hparts : ∀ e, .part e ∈ l → Framed F (c.registry.atoms e)) :
    Framed F (c.registry.atomsOf l) := by
  intro ms cs hm hf
  have hclean : l.Clean := fun x hx =>
    refuse_not_mem_of_marks hm x (Registry.mem_atomsOf.mpr (.inl hx))
  obtain ⟨b, hb⟩ := hl hclean []
  obtain ⟨ts, hreads, hlooks⟩ :=
    reading_of_framed (fun x => Layout.atom_of_run hb) hparts hm hf
  exact ⟨ts, (hl hclean).part hreads, hlooks⟩

/-- **A tree is read as its frame.**  What a tree without raw text writes, with the slots filled,
    is a part that looks like the frame of the tree. -/
theorem framed_tree (hr : c.registry.get? = Registry.builtin.get?) {e : Expr} (he : e.rawFree) :
    Framed F (c.registry.atoms e) := by
  induction e using c.registry.induction with
  | step e ih =>
      have ih := fun x hx => ih x hx (Expr.rawFree_of_part_mem he hx)
      rw [Registry.atoms_eq]
      -- A tree is one atom, or a layout over the trees of the induction.
      cases e with
      | literal v => exact framed_literal he
      | quoted v => exact framed_literal he
      | identifier n => exact framed_name n
      | keyword n => exact framed_name n
      | placeholder p => exact framed_slot p
      | list items => exact framed_of_closes (fun _ => Layout.closes_parenthesized items) ih
      | operation tag operands =>
          rw [Expr.rawFree, Bool.and_eq_true, bne_iff_ne] at he
          exact framed_of_closes (Registry.closes_operation hr he.1) ih

end Compiler
end SqlForms
