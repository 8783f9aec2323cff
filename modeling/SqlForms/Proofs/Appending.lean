import SqlForms.Proofs.Layouts

/-! # Writing only adds

    Text is merged into the text before it, so writing changes the end of
    the sequence under way.  Still, what is written does not depend on that
    sequence: a tree adds to any sequence what it writes on its own, and fails
    on any sequence as it fails on its own.  The pieces of a tree may
    therefore be written in place or each on a sequence of its own that is
    added afterwards, in any mixture.

    All of it rests on `Compiler.writeAtoms_eq_append` and on adding being
    associative; what is left is one induction along a layout and one along
    trees that are divided by a text. -/

namespace SqlForms.Compiler

open Fragments (Built)

variable {c : Compiler} {out : Fragments}

/-- A piece of a layout on a sequence of its own. -/
def writePiece (c : Compiler) : Piece → Except Error Fragments
  | .atom a => c.writeAtom .empty a
  | .part e => c.write e

/-- Writing the atoms of one piece is writing the piece. -/
theorem writeAtoms_piece (p : Piece) :
    c.writeAtoms .empty (c.registry.atomsOf [p]) = c.writePiece p := by
  cases p with
  | atom a =>
      show c.writeAtom .empty a >>= pure = c.writeAtom .empty a
      exact bind_pure _
  | part e =>
      rw [Registry.atomsOf_part, Registry.atomsOf_nil, List.append_nil]
      rfl

/-- A layout adds what its pieces write, each on a sequence of its own. -/
theorem writeAtoms_layout (hout : Built out) (l : Layout) :
    c.writeAtoms out (c.registry.atomsOf l) = (l.mapM c.writePiece).map (out ++ .concat ·) := by
  induction l generalizing out with
  | nil => rfl
  | cons p l ih =>
      rw [← List.singleton_append, Registry.atomsOf_append, writeAtoms_append,
        writeAtoms_eq_append hout, writeAtoms_piece, List.singleton_append, List.mapM_cons]
      cases hp : c.writePiece p with
      | error x => rfl
      | ok f =>
          -- The other pieces are added to a longer sequence, which is built as well.
          have hf : Built f := built_writeAtoms .empty ((writeAtoms_piece p).trans hp)
          refine (ih (hout.append hf)).trans ?_
          show _ = ((l.mapM c.writePiece) >>= fun fs => pure (f :: fs)).map _
          cases l.mapM c.writePiece with
          | error x => rfl
          | ok fs => exact congrArg Except.ok (hout.canonical.append_assoc f _).symm

/-- Trees divided by a text add what each of them writes, divided by the text. -/
theorem writeAtoms_joined (hout : Built out) (es : List Expr) (separator : String) :
    c.writeAtoms out (c.registry.atomsOf (.joined separator es)) =
      (es.mapM c.write).map (out ++ .join separator ·) := by
  induction es generalizing out with
  | nil => rfl
  | cons e es ih =>
      rw [List.mapM_cons]
      cases es with
      | nil =>
          show c.writeAtoms out (c.registry.atomsOf [.part e]) = _
          rw [Registry.atomsOf_part, Registry.atomsOf_nil, writeAtoms_tree hout]
          cases c.write e <;> rfl
      | cons e' es =>
          -- Only between two trees does the text stand, so the tail is taken as a whole.
          show c.writeAtoms out (c.registry.atoms e ++
            .text separator :: c.registry.atomsOf (.joined separator (e' :: es))) = _
          rw [writeAtoms_tree hout]
          cases he : c.write e with
          | error x => rfl
          | ok f =>
              have hf : Built (out ++ f) := hout.append (built_write he)
              refine (ih (hf.pushText separator)).trans ?_
              show _ = ((e' :: es).mapM c.write >>= fun fs => pure (f :: fs)).map _
              cases hes : (e' :: es).mapM c.write with
              | error x => rfl
              | ok fs =>
                  obtain ⟨g, -, hfs⟩ := bind_eq_ok.mp (List.mapM_cons.symm.trans hes)
                  obtain ⟨gs, -, hfs⟩ := bind_eq_ok.mp hfs
                  cases hfs
                  refine congrArg Except.ok ?_
                  show (out ++ f).pushText separator ++ .join separator (g :: gs) =
                    out ++ (f ++ (.ofText separator ++ .join separator (g :: gs)))
                  rw [← Fragments.append_ofText, ← hf.canonical.append_assoc,
                    hout.canonical.append_assoc]

/-- **Writing only adds.**  At the end of any sequence that was built, a tree adds what it writes on
    its own and fails as it fails on its own, whether it is written in place or its pieces are
    written on sequences of their own; and trees divided by a text add what each of them writes,
    divided by the text. -/
theorem writeInto_only_adds (c : Compiler) (out : Fragments) (hout : out.Built) :
    (∀ e, c.writeInto out e = (c.write e).map (out ++ ·) ∧
        c.writeInto out e = ((c.registry.layoutOf e).mapM c.writePiece).map (out ++ .concat ·)) ∧
      ∀ es separator,
        c.writeJoined out es separator = (es.mapM c.write).map (out ++ .join separator ·) := by
  refine ⟨fun e => ⟨writeAtoms_eq_append hout _, ?_⟩, writeAtoms_joined hout⟩
  rw [writeInto, Registry.atoms_eq]
  exact writeAtoms_layout hout _

/-- A list with a slot in it after a text that its first text is merged into. -/
theorem writeInto_only_adds_slotInList :
    let c : Compiler := { registry := .builtin }
    let out := ((Fragments.ofText "(").pushSlot {}).pushText " IN "
    let es : List Expr := [.identifier "a", .placeholder {}]
    out.Built ∧
      c.writeJoined out es ", " =
        .ok ⟨[.text "(", .slot {}, .text " IN a, ", .slot {}]⟩ ∧
      c.writeInto out (.list es) =
        .ok ⟨[.text "(", .slot {}, .text " IN (a, ", .slot {}, .text ")"]⟩ := by
  intro c out es
  have hout : out.Built := .pushText _ (.pushSlot _ (.ofText _))
  have hname : c.write (.identifier "a") = .ok (.ofText "a") := by
    have ha : Name.write false "a" = "a" := by decide
    refine (write_identifier "a").trans ?_
    show Except.ok (Fragments.ofText (Name.write false "a")) = _
    rw [ha]
  have hslot : c.write (.placeholder {}) = .ok ⟨[.slot {}]⟩ := by
    rw [write, writeInto, Registry.atoms_eq]
    rfl
  obtain ⟨htree, hjoined⟩ := writeInto_only_adds c out hout
  have hes : es.mapM c.write = .ok [.ofText "a", ⟨[.slot {}]⟩] := by
    rw [List.mapM_cons, List.mapM_cons, hname, hslot]
    rfl
  refine ⟨hout, ?_, ?_⟩
  · rw [hjoined, hes]
    rfl
  · have hpieces : (c.registry.layoutOf (.list es)).mapM c.writePiece =
        .ok [.ofText "(", .ofText "a", .ofText ", ", ⟨[.slot {}]⟩, .ofText ")"] := by
      show List.mapM c.writePiece
        ["(", .part (.identifier "a"), ", ", .part (.placeholder {}), ")"] = _
      simp only [List.mapM_cons, List.mapM_nil, writePiece, hname, hslot]
      rfl
    rw [(htree _).2, hpieces]
    rfl

end SqlForms.Compiler
