import SqlForms.Compiler

/-! # What writing leaves behind

    A sequence of fragments denotes a row of marks: characters, and slots in
    their places.  Writing extends the row at its end, atom by atom, so what
    a list of atoms leaves behind is a function of the list alone.

    The route:

    * `Fragments.marks` forgets how the text is cut into fragments;
    * `Compiler.marks` runs over the atoms from the left with no sequence
      under way, and `Compiler.marks_writeAtoms` says that it is what the
      writer adds;
    * finished text, numbered text and filled text are read off the marks
      (`sql?_eq`, `numberParts_eq`, `fillParts_eq`). -/

namespace SqlForms

/-- A character of a statement, or a value that comes later. -/
inductive Mark where
  | char (c : Char)
  | slot (p : Placeholder)
  deriving DecidableEq

namespace Mark

/-- The marks of a text. -/
def ofChars (cs : List Char) : List Mark :=
  cs.map .char

/-- The slot of a mark. -/
def slot? : Mark → Option Placeholder
  | .slot p => some p
  | .char _ => none

/-- The slots of a row of marks, in order. -/
def slots (ms : List Mark) : List Placeholder :=
  ms.filterMap slot?

/-- The characters of a row of marks, if it has no slot. -/
def chars? : List Mark → Option (List Char)
  | [] => some []
  | .char c :: ms => (chars? ms).map (c :: ·)
  | .slot _ :: _ => none

/-- The characters of a row of marks with values in its slots, in order. -/
def fill (d : Dialect) : List Mark → List Value → Except Error (List Char)
  | [], _ => .ok []
  | .char c :: ms, vs => (fill d ms vs).map (c :: ·)
  | .slot _ :: ms, v :: vs => do
      let first ← v.sql d
      let rest ← fill d ms vs
      return first.toList ++ rest
  | .slot _ :: ms, [] => fill d ms []

/-- The characters of a row of marks with its slots numbered from `n`. -/
def number (n : Nat) : List Mark → List Char
  | [] => []
  | .char c :: ms => c :: number n ms
  | .slot _ :: ms => '$' :: Nat.toDigits 10 n ++ number (n + 1) ms

@[simp] private theorem ofChars_nil : ofChars [] = [] := rfl

@[simp] theorem ofChars_cons (c : Char) (cs : List Char) :
    ofChars (c :: cs) = .char c :: ofChars cs := rfl

@[simp] private theorem ofChars_append (cs cs' : List Char) :
    ofChars (cs ++ cs') = ofChars cs ++ ofChars cs' := by
  simp [ofChars]

/-- Different texts are different marks. -/
theorem ofChars_injective {cs cs' : List Char} (h : ofChars cs = ofChars cs') : cs = cs' :=
  (List.map_inj_right fun _ _ => Mark.char.inj).mp h

@[simp] private theorem slots_nil : slots [] = [] := rfl

@[simp] theorem slots_slot (p : Placeholder) (ms : List Mark) :
    slots (.slot p :: ms) = p :: slots ms := rfl

/-- Rows of marks one after the other have the slots of both. -/
@[simp] theorem slots_append (ms ms' : List Mark) :
    slots (ms ++ ms') = slots ms ++ slots ms' := by
  simp [slots]

/-- Text has no slots. -/
@[simp] theorem slots_ofChars (cs : List Char) : slots (ofChars cs) = [] := by
  simp [slots, ofChars, slot?]

/-- A row of marks without slots is its characters. -/
theorem chars?_eq_some {ms : List Mark} {cs : List Char} :
    chars? ms = some cs ↔ ms = ofChars cs := by
  induction ms generalizing cs with
  | nil => cases cs <;> simp [chars?]
  | cons m ms ih =>
      cases m with
      | char c =>
          rw [chars?, Option.map_eq_some_iff]
          constructor
          · rintro ⟨rest, hr, rfl⟩
            rw [ih.mp hr, ofChars_cons]
          · intro h
            cases cs with
            | nil => cases h
            | cons c' rest =>
                obtain ⟨rfl, hr⟩ : c = c' ∧ ms = ofChars rest := by simpa using h
                exact ⟨rest, ih.mpr hr, rfl⟩
      | slot p => cases cs <;> simp [chars?]

/-- A row of marks has characters alone exactly when it has no slot. -/
theorem chars?_eq_none {ms : List Mark} : chars? ms = none ↔ slots ms ≠ [] := by
  induction ms with
  | nil => simp [chars?]
  | cons m ms ih =>
      cases m with
      | char c => simpa [chars?, slots, slot?] using ih
      | slot p => simp [chars?]

private theorem chars?_ofChars_append (cs : List Char) (ms : List Mark) :
    chars? (ofChars cs ++ ms) = (chars? ms).map (cs ++ ·) := by
  induction cs with
  | nil => simp
  | cons c cs ih => simp [chars?, ih, Function.comp_def]

/-- Text in front stays in front when slots are filled. -/
theorem fill_ofChars_append (d : Dialect) (cs : List Char) (ms : List Mark) (vs : List Value) :
    fill d (ofChars cs ++ ms) vs = (fill d ms vs).map (cs ++ ·) := by
  induction cs with
  | nil => cases h : fill d ms vs <;> simp [h]
  | cons c cs ih =>
      rw [ofChars_cons, List.cons_append, fill, ih]
      cases fill d ms vs <;> rfl

/-- So it does when slots are numbered. -/
theorem number_ofChars_append (n : Nat) (cs : List Char) (ms : List Mark) :
    number n (ofChars cs ++ ms) = cs ++ number n ms := by
  induction cs with
  | nil => rfl
  | cons c cs ih => rw [ofChars_cons, List.cons_append, number, ih]; rfl

end Mark

/-! ## The marks of fragments -/

/-- The marks of a fragment. -/
def Fragment.marks : Fragment → List Mark
  | .text s => Mark.ofChars s.toList
  | .slot p => [.slot p]

/-- What a list of fragments denotes. -/
def marksOf (fs : List Fragment) : List Mark :=
  fs.flatMap Fragment.marks

/-- What a sequence of fragments denotes. -/
def Fragments.marks (f : Fragments) : List Mark :=
  marksOf f.parts

@[simp] private theorem marksOf_nil : marksOf [] = [] := rfl

@[simp] theorem marksOf_cons (f : Fragment) (fs : List Fragment) :
    marksOf (f :: fs) = f.marks ++ marksOf fs := rfl

/-- Adding text adds its marks. -/
theorem marksOf_addText (s : String) (fs : List Fragment) :
    marksOf (addText s fs) = marksOf fs ++ Mark.ofChars s.toList := by
  fun_induction addText s fs with
  | case1 => simp [Fragment.marks]
  | case2 t => simp [Fragment.marks]
  | case3 f fs _ ih => simp [ih]

namespace Fragments

@[simp] theorem marks_empty : empty.marks = [] := rfl

/-- Adding text to a sequence adds its marks. -/
@[simp] theorem marks_pushText (f : Fragments) (s : String) :
    (f.pushText s).marks = f.marks ++ Mark.ofChars s.toList := by
  unfold pushText
  by_cases h : s = ""
  · simp [h]
  · rw [if_neg h]
    exact marksOf_addText s f.parts

/-- Adding a slot to a sequence adds its mark. -/
@[simp] theorem marks_pushSlot (f : Fragments) (p : Placeholder) :
    (f.pushSlot p).marks = f.marks ++ [.slot p] := by
  simp [pushSlot, marks, marksOf, Fragment.marks]

/-- The slots of a sequence are those of its marks. -/
theorem slots_eq (f : Fragments) : f.slots = Mark.slots f.marks := by
  obtain ⟨fs⟩ := f
  show fs.filterMap Fragments.slot? = Mark.slots (marksOf fs)
  induction fs with
  | nil => rfl
  | cons a fs ih =>
      cases a with
      | text s =>
          rw [List.filterMap_cons_none rfl, ih]
          simp [Fragment.marks]
      | slot p =>
          show p :: fs.filterMap Fragments.slot? = p :: Mark.slots (marksOf fs)
          rw [ih]

/-- A sequence is finished text exactly when its marks are characters. -/
theorem sql?_eq (f : Fragments) : f.sql? = (Mark.chars? f.marks).map String.ofList := by
  obtain ⟨fs⟩ := f
  show textOf? fs = (Mark.chars? (marksOf fs)).map String.ofList
  induction fs with
  | nil => rfl
  | cons a fs ih =>
      cases a with
      | text s =>
          rw [textOf?, ih, marksOf_cons, Fragment.marks, Mark.chars?_ofChars_append]
          cases Mark.chars? (marksOf fs) <;> simp
      | slot p => rfl

end Fragments

namespace Template

/-- Filling fragments fills their marks. -/
theorem fillParts_eq (d : Dialect) (fs : List Fragment) (vs : List Value) :
    fillParts d fs vs = (Mark.fill d (marksOf fs) vs).map String.ofList := by
  induction fs generalizing vs with
  | nil => rfl
  | cons a fs ih =>
      cases a with
      | text s =>
          rw [fillParts, ih, marksOf_cons, Fragment.marks, Mark.fill_ofChars_append]
          cases Mark.fill d (marksOf fs) vs <;> simp
      | slot p =>
          cases vs with
          | nil => exact ih []
          | cons v vs =>
              simp only [fillParts, ih, marksOf_cons, Fragment.marks, List.singleton_append,
                Mark.fill]
              cases v.sql d with
              | error x => rfl
              | ok s =>
                  cases Mark.fill d (marksOf fs) vs <;> simp

/-- Numbering fragments numbers their marks. -/
theorem numberParts_eq (n : Nat) (fs : List Fragment) :
    numberParts n fs = String.ofList (Mark.number n (marksOf fs)) := by
  induction fs generalizing n with
  | nil => rfl
  | cons a fs ih =>
      cases a with
      | text s =>
          rw [numberParts, ih, marksOf_cons, Fragment.marks, Mark.number_ofChars_append]
          simp
      | slot p =>
          rw [numberParts, ih, marksOf_cons]
          apply String.toList_inj.mp
          simp [Fragment.marks, Mark.number]

/-- With one value for each slot, filling a template fills its marks. -/
theorem fill_eq (t : Template) {vs : List Value} (h : vs.length = t.slotCount) :
    t.fill vs = (Mark.fill t.config.strings t.fragments.marks vs).map String.ofList := by
  rw [fill, if_pos h, fillParts_eq]
  rfl

end Template

/-! ## The marks of atoms -/

namespace Compiler

/-- What an atom writes. -/
def atomMarks (c : Compiler) : Atom → Except Error (List Mark)
  | .text s => .ok (Mark.ofChars s.toList)
  | .name n => .ok (Mark.ofChars (Name.write c.config.quoteNames n).toList)
  | .literal v => (v.sql c.config.strings).map fun s => Mark.ofChars s.toList
  | .slot p =>
      match c.mode with
      | .deferred => .ok [.slot p]
      | .static => .error (.unbound p)
  | .chosen f => .ok (Mark.ofChars (f c.config c.mode).toList)
  | .refuse e => .error e

/-- What atoms write, up to the first that cannot be written. -/
def marks (c : Compiler) : List Atom → Except Error (List Mark)
  | [] => .ok []
  | a :: as => do
      let first ← c.atomMarks a
      let rest ← c.marks as
      return first ++ rest

/-- The compiler with every value known. -/
abbrev static (c : Compiler) : Compiler := { c with mode := .static }

/-- The compiler that leaves slots. -/
abbrev deferred (c : Compiler) : Compiler := { c with mode := .deferred }

/-- Writing an atom adds what it denotes. -/
theorem marks_writeAtom (c : Compiler) (out : Fragments) (a : Atom) :
    (c.writeAtom out a).map Fragments.marks = (c.atomMarks a).map (out.marks ++ ·) := by
  cases a with
  | text s => simp [writeAtom, atomMarks]
  | name n => simp [writeAtom, atomMarks]
  | literal v => cases h : v.sql c.config.strings <;> simp [writeAtom, atomMarks, h]
  | slot p => cases h : c.mode <;> simp [writeAtom, atomMarks, h]
  | chosen f => simp [writeAtom, atomMarks]
  | refuse e => rfl

/-- Writing atoms adds what they denote. -/
theorem marks_writeAtoms (c : Compiler) (out : Fragments) (as : List Atom) :
    (c.writeAtoms out as).map Fragments.marks = (c.marks as).map (out.marks ++ ·) := by
  induction as generalizing out with
  | nil => simp [writeAtoms, marks]
  | cons a as ih =>
      have step := c.marks_writeAtom out a
      rw [writeAtoms, List.foldlM_cons, marks]
      cases hw : c.writeAtom out a with
      | error x =>
          rw [hw] at step
          cases ha : c.atomMarks a with
          | ok ms => rw [ha] at step; cases step
          | error y => rw [ha] at step; cases step; rfl
      | ok out' =>
          rw [hw] at step
          cases ha : c.atomMarks a with
          | error y => rw [ha] at step; cases step
          | ok ms =>
              rw [ha] at step
              have hout : out'.marks = out.marks ++ ms := Except.ok.inj step
              show (c.writeAtoms out' as).map Fragments.marks = _
              rw [ih out', hout]
              cases c.marks as <;> simp

/-- Atoms in a row are written one half after the other. -/
theorem writeAtoms_append (c : Compiler) (out : Fragments) (as bs : List Atom) :
    c.writeAtoms out (as ++ bs) = c.writeAtoms out as >>= fun f => c.writeAtoms f bs :=
  List.foldlM_append

/-- What a tree denotes is what its atoms write. -/
theorem marks_write (c : Compiler) (e : Expr) :
    (c.write e).map Fragments.marks = c.marks (c.registry.atoms e) := by
  rw [write, writeInto, marks_writeAtoms]
  cases c.marks (c.registry.atoms e) <;> rfl

/-- Atoms in a row write what both halves write. -/
theorem marks_append (c : Compiler) (as bs : List Atom) :
    c.marks (as ++ bs) = (do
      let first ← c.marks as
      let rest ← c.marks bs
      return first ++ rest) := by
  induction as with
  | nil => cases h : c.marks bs <;> simp [marks, h]
  | cons a as ih =>
      rw [List.cons_append, marks, marks, ih]
      cases c.atomMarks a with
      | error x => rfl
      | ok x =>
          cases c.marks as with
          | error y => rfl
          | ok y => cases c.marks bs <;> simp

/-- Atoms in a row are written when both halves are. -/
theorem marks_append_eq_ok {c : Compiler} {as bs : List Atom} {ms : List Mark} :
    c.marks (as ++ bs) = .ok ms ↔
      ∃ x y, c.marks as = .ok x ∧ c.marks bs = .ok y ∧ ms = x ++ y := by
  rw [marks_append, bind_eq_ok]
  constructor
  · rintro ⟨x, hx, h⟩
    obtain ⟨y, hy, h⟩ := bind_eq_ok.mp h
    cases h
    exact ⟨x, y, hx, hy, rfl⟩
  · rintro ⟨x, y, hx, hy, rfl⟩
    exact ⟨x, hx, bind_eq_ok.mpr ⟨y, hy, rfl⟩⟩

/-- What is written for anything but a placeholder is text. -/
theorem atomMarks_eq_ofChars {c : Compiler} {a : Atom} {ms : List Mark}
    (hs : ∀ p, a ≠ .slot p) (h : c.atomMarks a = .ok ms) : ∃ cs, ms = Mark.ofChars cs := by
  cases a with
  | text s => exact ⟨_, (Except.ok.inj h).symm⟩
  | name n => exact ⟨_, (Except.ok.inj h).symm⟩
  | literal v =>
      rw [atomMarks] at h
      cases hv : v.sql c.config.strings with
      | error e => rw [hv] at h; cases h
      | ok s => rw [hv] at h; exact ⟨_, (Except.ok.inj h).symm⟩
  | slot p => exact absurd rfl (hs p)
  | chosen f => exact ⟨_, (Except.ok.inj h).symm⟩
  | refuse e => cases h

/-- Nothing that is written with every value known is a slot. -/
theorem slots_of_static {c : Compiler} {as : List Atom} {ms : List Mark}
    (h : c.static.marks as = .ok ms) : Mark.slots ms = [] := by
  induction as generalizing ms with
  | nil => cases h; rfl
  | cons a as ih =>
      obtain ⟨x, hx, h⟩ := bind_eq_ok.mp h
      obtain ⟨y, hy, h⟩ := bind_eq_ok.mp h
      cases h
      have hs : ∀ p, a ≠ .slot p := by
        rintro p rfl
        cases hx
      obtain ⟨cs, rfl⟩ := atomMarks_eq_ofChars hs hx
      rw [Mark.slots_append, Mark.slots_ofChars, ih hy]
      rfl

/-- Where atoms are written, none of them is a fault. -/
theorem refuse_not_mem_of_marks {c : Compiler} {as : List Atom} {ms : List Mark}
    (h : c.marks as = .ok ms) (x : Error) : .refuse x ∉ as := by
  intro hx
  obtain ⟨before, after, rfl⟩ := List.append_of_mem hx
  obtain ⟨_, _, -, h, -⟩ := marks_append_eq_ok.mp h
  cases h

/-! ## What the compiler makes of the marks -/

/-- Every value known, a tree that is written is finished text. -/
theorem sql?_of_static {c : Compiler} {e : Expr} {f : Fragments} (h : c.static.write e = .ok f) :
    ∃ cs, f.marks = Mark.ofChars cs ∧ f.sql? = some (String.ofList cs) := by
  have hm : c.static.marks (c.registry.atoms e) = .ok f.marks := by
    rw [← c.static.marks_write e, h]
    rfl
  have hs := slots_of_static hm
  cases hc : Mark.chars? f.marks with
  | none => exact absurd hs (Mark.chars?_eq_none.mp hc)
  | some cs => exact ⟨cs, Mark.chars?_eq_some.mp hc, by rw [f.sql?_eq, hc, Option.map_some]⟩

/-- The text of a tree is what its atoms write with every value known. -/
theorem statement_eq (c : Compiler) (e : Expr) :
    (c.statement e).map (fun s => Mark.ofChars s.toList) = c.static.marks (c.registry.atoms e) := by
  rw [← c.static.marks_write e, statement]
  cases hf : c.static.write e with
  | error x => rfl
  | ok f =>
      obtain ⟨cs, hm, hs⟩ := sql?_of_static hf
      simp [hs, hm]

/-- A tree has a text exactly when its atoms, with every value known, write it. -/
theorem statement_eq_ok {c : Compiler} {e : Expr} {s : String} :
    c.statement e = .ok s ↔ c.static.marks (c.registry.atoms e) = .ok (Mark.ofChars s.toList) := by
  rw [← c.statement_eq e]
  cases c.statement e with
  | error x => simp
  | ok t =>
      constructor
      · intro h; cases h; rfl
      · intro h
        rw [String.toList_injective (Mark.ofChars_injective (Except.ok.inj h))]

/-- A tree has no text for the reason its atoms cannot be written with every value known. -/
theorem statement_eq_error {c : Compiler} {e : Expr} {x : Error} :
    c.statement e = .error x ↔ c.static.marks (c.registry.atoms e) = .error x := by
  rw [← c.statement_eq e]
  cases c.statement e <;> simp

/-- The template of a tree holds what its atoms write with slots left. -/
theorem template_eq (c : Compiler) (e : Expr) :
    (c.template e).map (·.fragments.marks) = c.deferred.marks (c.registry.atoms e) := by
  rw [← c.deferred.marks_write e, template]
  cases c.deferred.write e <;> rfl

/-- A template keeps the configuration it was made under. -/
theorem config_of_template {c : Compiler} {e : Expr} {t : Template} (h : c.template e = .ok t) :
    t.config = c.config := by
  obtain ⟨f, -, h⟩ := bind_eq_ok.mp h
  cases h
  rfl

/-- The template of a tree has the marks that its atoms leave. -/
theorem marks_of_template {c : Compiler} {e : Expr} {t : Template} (h : c.template e = .ok t) :
    c.deferred.marks (c.registry.atoms e) = .ok t.fragments.marks := by
  rw [← c.template_eq e, h]
  rfl

end Compiler
end SqlForms
