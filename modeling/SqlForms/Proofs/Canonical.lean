import SqlForms.Proofs.Registered
import SqlForms.Proofs.Writing

/-! # Sequences of fragments are canonical

    However a sequence of fragments is put together, it holds no empty text
    and no two texts in a row.  Such a sequence is the only one with its
    marks, so whatever holds of marks holds of sequences: adding sequences
    together is associative because adding rows of marks is.

    * `Fragments.Built` collects the sequences that are made by adding texts,
      slots and other such sequences; what the compiler writes is one of them
      (`Compiler.built_write`).
    * `Fragments.Canonical` is kept by each of these steps, hence by any
      number of them (`Built.canonical`).
    * `Canonical.ext` reads a sequence off its marks: a text is the run of
      characters up to the next slot. -/

namespace SqlForms

namespace Fragments

variable {f g h : Fragments}

/-- The sequences that are made by adding texts, slots and other such sequences. -/
inductive Built : Fragments → Prop where
  | empty : Built .empty
  | ofText (s : String) : Built (.ofText s)
  | pushText {f : Fragments} (s : String) : Built f → Built (f.pushText s)
  | pushSlot {f : Fragments} (p : Placeholder) : Built f → Built (f.pushSlot p)
  | append {f g : Fragments} : Built f → Built g → Built (f ++ g)

/-- Whether no text of a sequence is empty and no two of its texts stand side by side. -/
structure Canonical (f : Fragments) : Prop where
  nonempty : ∀ s, .text s ∈ f.parts → s ≠ ""
  apart : ∀ before s t after, f.parts ≠ before ++ .text s :: .text t :: after

/-! ## Each step keeps a sequence canonical -/

private theorem canonical_empty : Canonical .empty := by
  refine ⟨fun s hs => ?_, fun before s t after hparts => ?_⟩
  · cases hs
  · cases before <;> cases hparts

/-- A text and a canonical rest that does not begin with another one. -/
theorem canonical_text {s : String} {fs : List Fragment} :
    Canonical ⟨.text s :: fs⟩ ↔
      s ≠ "" ∧ (∀ t, fs.head? ≠ some (.text t)) ∧ Canonical ⟨fs⟩ := by
  constructor
  · rintro ⟨hne, hapart⟩
    refine ⟨hne s List.mem_cons_self, fun t ht => ?_, ?_, ?_⟩
    · obtain ⟨rest, rfl⟩ := List.head?_eq_some_iff.mp ht
      exact hapart [] s t rest rfl
    · exact fun t ht => hne t (List.mem_cons_of_mem _ ht)
    · exact fun before t u after hfs =>
        hapart (.text s :: before) t u after (congrArg (.text s :: ·) hfs)
  · rintro ⟨hs, hhead, hrest⟩
    refine ⟨fun t ht => ?_, fun before t u after hparts => ?_⟩
    · rcases List.mem_cons.mp ht with ht | ht
      · cases ht
        exact hs
      · exact hrest.nonempty t ht
    · cases before with
      | nil =>
          cases hparts
          exact hhead u rfl
      | cons b before =>
          cases hparts
          exact hrest.apart before t u after rfl

/-- A slot may stand before anything. -/
theorem canonical_slot {p : Placeholder} {fs : List Fragment} :
    Canonical ⟨.slot p :: fs⟩ ↔ Canonical ⟨fs⟩ := by
  constructor
  · rintro ⟨hne, hapart⟩
    refine ⟨fun t ht => hne t (List.mem_cons_of_mem _ ht), fun before t u after hfs => ?_⟩
    exact hapart (.slot p :: before) t u after (congrArg (.slot p :: ·) hfs)
  · rintro ⟨hne, hapart⟩
    refine ⟨fun t ht => ?_, fun before t u after hparts => ?_⟩
    · rcases List.mem_cons.mp ht with ht | ht
      · cases ht
      · exact hne t ht
    · cases before with
      | nil => cases hparts
      | cons b before =>
          cases hparts
          exact hapart before t u after rfl

/-- Adding text to a sequence does not change whether it begins with one. -/
theorem head?_addText {s t : String} {fs : List Fragment} (hfs : fs ≠ [])
    (ht : (addText s fs).head? = some (.text t)) : ∃ u, fs.head? = some (.text u) := by
  cases fs with
  | nil => exact absurd rfl hfs
  | cons a fs =>
      cases a with
      | text u => exact ⟨u, rfl⟩
      | slot p => cases ht

/-- Text that is not empty joins the text before it, so no two texts meet. -/
theorem canonical_addText {s : String} (hs : s ≠ "") {fs : List Fragment}
    (hfs : Canonical ⟨fs⟩) : Canonical ⟨addText s fs⟩ := by
  fun_induction addText s fs with
  | case1 => exact canonical_text.mpr ⟨hs, by simp, hfs⟩
  | case2 t =>
      obtain ⟨ht, -, hrest⟩ := canonical_text.mp hfs
      refine canonical_text.mpr ⟨fun hempty => ht ?_, by simp, hrest⟩
      exact (String.append_eq_empty_iff.mp hempty).1
  | case3 a fs hlast ih =>
      cases a with
      | slot p => exact canonical_slot.mpr (ih (canonical_slot.mp hfs))
      | text u =>
          obtain ⟨hu, hhead, hrest⟩ := canonical_text.mp hfs
          have hne : fs ≠ [] := fun h => hlast u rfl h
          refine canonical_text.mpr ⟨hu, fun t ht => ?_, ih hrest⟩
          obtain ⟨t', ht'⟩ := head?_addText hne ht
          exact hhead t' ht'

/-- Adding text keeps fragments canonical. -/
theorem Canonical.pushText (hf : Canonical f) (s : String) : Canonical (f.pushText s) := by
  unfold Fragments.pushText
  split
  · exact hf
  next hs => exact canonical_addText hs hf

/-- Adding a slot keeps fragments canonical. -/
theorem Canonical.pushSlot (hf : Canonical f) (p : Placeholder) : Canonical (f.pushSlot p) := by
  obtain ⟨fs⟩ := f
  show Canonical ⟨fs ++ [.slot p]⟩
  induction fs with
  | nil => exact canonical_slot.mpr canonical_empty
  | cons a fs ih =>
      cases a with
      | slot q => exact canonical_slot.mpr (ih (canonical_slot.mp hf))
      | text s =>
          obtain ⟨hs, hhead, hrest⟩ := canonical_text.mp hf
          refine canonical_text.mpr ⟨hs, fun t ht => ?_, ih hrest⟩
          cases fs with
          | nil => cases ht
          | cons b fs => exact hhead t ht

/-- Adding a fragment keeps fragments canonical. -/
theorem Canonical.push (hf : Canonical f) (a : Fragment) : Canonical (f.push a) := by
  cases a with
  | text s => exact hf.pushText s
  | slot p => exact hf.pushSlot p

/-- Adding any fragments at all keeps a sequence canonical. -/
theorem Canonical.append (hf : Canonical f) (g : Fragments) : Canonical (f ++ g) := by
  obtain ⟨gs⟩ := g
  show Canonical (gs.foldl Fragments.push f)
  induction gs generalizing f with
  | nil => exact hf
  | cons a gs ih => exact ih (hf.push a)

/-- A sequence that is built is canonical. -/
theorem Built.canonical (hf : Built f) : Canonical f := by
  induction hf with
  | empty => exact canonical_empty
  | ofText s => exact canonical_empty.pushText s
  | pushText s _ ih => exact ih.pushText s
  | pushSlot p _ ih => exact ih.pushSlot p
  | append _ _ ihf _ => exact ihf.append _

/-! ## A canonical sequence is determined by its marks -/

/-- Adding a fragment adds its marks. -/
theorem marks_push (f : Fragments) (a : Fragment) : (f.push a).marks = f.marks ++ a.marks := by
  cases a with
  | text s => exact f.marks_pushText s
  | slot p => exact f.marks_pushSlot p

/-- Adding a sequence adds its marks. -/
theorem marks_append (f g : Fragments) : (f ++ g).marks = f.marks ++ g.marks := by
  obtain ⟨gs⟩ := g
  show (gs.foldl push f).marks = f.marks ++ marksOf gs
  induction gs generalizing f with
  | nil => simp
  | cons a gs ih => rw [List.foldl_cons, ih, marks_push, marksOf_cons, List.append_assoc]

end Fragments

namespace Mark

/-- The characters before a slot, or before the end, are told from what comes after them. -/
theorem ofChars_append_inj {cs ds : List Char} {ms ns : List Mark}
    (hm : ∀ c, ms.head? ≠ some (.char c)) (hn : ∀ c, ns.head? ≠ some (.char c))
    (h : ofChars cs ++ ms = ofChars ds ++ ns) : cs = ds ∧ ms = ns := by
  induction cs generalizing ds with
  | nil =>
      cases ds with
      | nil => exact ⟨rfl, h⟩
      | cons d ds => exact absurd (congrArg List.head? h) (hm d)
  | cons c cs ih =>
      cases ds with
      | nil => exact absurd (congrArg List.head? h.symm) (hn c)
      | cons d ds =>
          obtain ⟨hcd, hrest⟩ := List.cons.inj h
          obtain ⟨rfl, hms⟩ := ih hrest
          cases hcd
          exact ⟨rfl, hms⟩

end Mark

namespace Fragments

variable {f g h : Fragments}

/-- Where no text comes first, no character does. -/
theorem head?_marksOf {fs : List Fragment} (hfs : ∀ t, fs.head? ≠ some (.text t)) (c : Char) :
    (marksOf fs).head? ≠ some (.char c) := by
  cases fs with
  | nil => intro h; cases h
  | cons a fs =>
      cases a with
      | text t => exact absurd rfl (hfs t)
      | slot p => intro h; cases h

/-- A text that is not empty begins with a character. -/
theorem head?_text {s : String} (hs : s ≠ "") (ms : List Mark) :
    ∃ c, (Mark.ofChars s.toList ++ ms).head? = some (.char c) := by
  obtain ⟨c, cs, hcs⟩ := List.exists_cons_of_ne_nil (mt String.toList_eq_nil_iff.mp hs)
  exact ⟨c, by rw [hcs]; rfl⟩

/-- Canonical fragments without marks are none. -/
theorem Canonical.eq_nil {fs : List Fragment} (hfs : Canonical ⟨fs⟩) (hm : marksOf fs = []) :
    fs = [] := by
  cases fs with
  | nil => rfl
  | cons a fs =>
      cases a with
      | slot p => cases hm
      | text s =>
          obtain ⟨c, hc⟩ := head?_text (canonical_text.mp hfs).1 (marksOf fs)
          have hm : Mark.ofChars s.toList ++ marksOf fs = [] := hm
          rw [hm] at hc
          cases hc

/-- Canonical sequences with the same marks are the same. -/
theorem Canonical.ext (hf : Canonical f) (hg : Canonical g) (hm : f.marks = g.marks) : f = g := by
  obtain ⟨fs⟩ := f
  obtain ⟨gs⟩ := g
  change marksOf fs = marksOf gs at hm
  suffices fs = gs by rw [this]
  induction fs generalizing gs with
  | nil => exact (hg.eq_nil hm.symm).symm
  | cons a fs ih =>
      cases gs with
      | nil => exact hf.eq_nil hm
      | cons b gs =>
          rw [marksOf_cons, marksOf_cons] at hm
          cases a with
          | slot p =>
              cases b with
              | slot q =>
                  obtain ⟨hpq, hrest⟩ := List.cons.inj hm
                  cases hpq
                  rw [ih (canonical_slot.mp hf) gs (canonical_slot.mp hg) hrest]
              | text t =>
                  obtain ⟨c, hc⟩ := head?_text (canonical_text.mp hg).1 (marksOf gs)
                  cases (congrArg List.head? hm).trans hc
          | text s =>
              cases b with
              | slot q =>
                  obtain ⟨c, hc⟩ := head?_text (canonical_text.mp hf).1 (marksOf fs)
                  cases hc.symm.trans (congrArg List.head? hm)
              | text t =>
                  -- No text follows a text, so both end at the first slot or at the end.
                  obtain ⟨-, hs, hfs⟩ := canonical_text.mp hf
                  obtain ⟨-, ht, hgs⟩ := canonical_text.mp hg
                  obtain ⟨hst, hrest⟩ :=
                    Mark.ofChars_append_inj (head?_marksOf hs) (head?_marksOf ht) hm
                  rw [String.toList_inj.mp hst, ih hfs gs hgs hrest]

/-! ## What follows -/

/-- Adding sequences together is associative, from the left a canonical one. -/
theorem Canonical.append_assoc (hf : Canonical f) (g h : Fragments) :
    f ++ (g ++ h) = f ++ g ++ h := by
  refine (hf.append _).ext ((hf.append g).append h) ?_
  rw [marks_append, marks_append, marks_append, marks_append, List.append_assoc]

private theorem Canonical.empty_append (hf : Canonical f) : .empty ++ f = f := by
  refine (canonical_empty.append f).ext hf ?_
  rw [marks_append, marks_empty, List.nil_append]

/-- Adding no fragment changes nothing. -/
theorem append_empty (f : Fragments) : f ++ .empty = f := rfl

/-- Adding a text is adding the sequence of that text. -/
theorem append_ofText (f : Fragments) (s : String) : f ++ .ofText s = f.pushText s := by
  by_cases hs : s = ""
  · rw [hs]
    rfl
  · rw [ofText, pushText, if_neg hs]
    rfl

/-- A sequence is finished text exactly when it has no slot. -/
theorem isSome_sql?_iff (f : Fragments) : f.sql?.isSome ↔ f.slotCount = 0 := by
  rw [sql?_eq, Option.isSome_map, slotCount, slots_eq, List.length_eq_zero_iff]
  cases hc : Mark.chars? f.marks with
  | none => simpa using Mark.chars?_eq_none.mp hc
  | some cs => simp [Mark.chars?_eq_some.mp hc]

end Fragments

namespace Compiler

open Fragments (Built)

variable {c : Compiler}

/-- Writing an atom builds on what was built. -/
theorem built_writeAtom {out f : Fragments} {a : Atom} (hout : Built out)
    (h : c.writeAtom out a = .ok f) : Built f := by
  cases a with
  | text s =>
      cases h
      exact hout.pushText s
  | name n =>
      cases h
      exact hout.pushText _
  | literal v =>
      obtain ⟨s, -, rfl⟩ := map_eq_ok.mp h
      exact hout.pushText s
  | slot p =>
      rw [writeAtom] at h
      cases hm : c.mode with
      | static => rw [hm] at h; cases h
      | deferred =>
          rw [hm] at h
          cases h
          exact hout.pushSlot p
  | chosen s =>
      cases h
      exact hout.pushText _
  | refuse x => cases h

/-- Writing atoms builds on what was built. -/
theorem built_writeAtoms {out f : Fragments} {as : List Atom} (hout : Built out)
    (h : c.writeAtoms out as = .ok f) : Built f := by
  induction as generalizing out with
  | nil =>
      cases h
      exact hout
  | cons a as ih =>
      obtain ⟨out', ha, h⟩ := bind_eq_ok.mp (List.foldlM_cons.symm.trans h)
      exact ih (built_writeAtom hout ha) h

/-- What is written for a tree is built. -/
theorem built_write {e : Expr} {f : Fragments} (h : c.write e = .ok f) : Built f :=
  built_writeAtoms .empty h

/-- Atoms are added to a sequence as they are written on their own. -/
theorem writeAtoms_eq_append {out : Fragments} (hout : Built out) (as : List Atom) :
    c.writeAtoms out as = (c.writeAtoms .empty as).map (out ++ ·) := by
  have hmarks := c.marks_writeAtoms out as
  have hempty := c.marks_writeAtoms .empty as
  cases hf : c.writeAtoms out as with
  | error x =>
      rw [hf] at hmarks
      rw [map_eq_error.mp hmarks.symm] at hempty
      rw [map_eq_error.mp hempty]
      rfl
  | ok f =>
      rw [hf] at hmarks
      obtain ⟨ms, hms, hout'⟩ := map_eq_ok.mp hmarks.symm
      rw [hms] at hempty
      obtain ⟨g, hg, hgms⟩ := map_eq_ok.mp hempty
      have hgms : g.marks = ms := hgms
      rw [hg]
      refine congrArg Except.ok ?_
      refine (built_writeAtoms hout hf).canonical.ext (hout.canonical.append g) ?_
      rw [Fragments.marks_append, hgms, ← hout']

/-- A tree is added to a sequence as it is written on its own. -/
theorem writeAtoms_tree {out : Fragments} (hout : Built out) (e : Expr) (as : List Atom) :
    c.writeAtoms out (c.registry.atoms e ++ as) =
      c.write e >>= fun f => c.writeAtoms (out ++ f) as := by
  rw [writeAtoms_append, writeAtoms_eq_append hout]
  show (c.write e).map _ >>= _ = _
  cases c.write e <;> rfl

end Compiler

namespace Fragments

/-- **Sequences of fragments are canonical.**  What the compiler writes is built like any other
    sequence; what is built has no empty text and no two texts side by side, and is the only such
    sequence with its marks.  Adding sequences adds their marks, is associative, and adds nothing
    where one is empty; and a sequence is finished text exactly when it has no slot. -/
theorem built_canonical :
    (∀ (c : Compiler) (e : Expr) (f : Fragments), c.write e = .ok f → f.Built) ∧
      (∀ f : Fragments, f.Built → (∀ s, .text s ∈ f.parts → s ≠ "") ∧
        ∀ before s t after, f.parts ≠ before ++ .text s :: .text t :: after) ∧
      (∀ f g : Fragments, f.Built → g.Built → f.marks = g.marks → f = g) ∧
      (∀ f g : Fragments, f.Built → g.Built → (f ++ g).marks = f.marks ++ g.marks) ∧
      (∀ f g h : Fragments, f.Built → g.Built → h.Built → f ++ (g ++ h) = f ++ g ++ h) ∧
      (∀ f : Fragments, f.Built → .empty ++ f = f ∧ f ++ .empty = f) ∧
      ∀ f : Fragments, f.Built → (f.sql?.isSome ↔ f.slotCount = 0) := by
  refine ⟨fun c e f hf => Compiler.built_write hf, fun f hf => ?_, fun f g hf hg => ?_,
    fun f g _ _ => marks_append f g, fun f g h hf _ _ => hf.canonical.append_assoc g h,
    fun f hf => ⟨hf.canonical.empty_append, append_empty f⟩, fun f _ => isSome_sql?_iff f⟩
  · exact ⟨hf.canonical.nonempty, hf.canonical.apart⟩
  · exact hf.canonical.ext hg.canonical

/-- A sequence around a slot, put together in two ways. -/
theorem built_canonical_twoWays :
    let f := ((ofText "SELECT ").pushText "1").pushSlot {} ++ (ofText ", " ++ ofText "2")
    let g := ((ofText "SELECT 1" ++ empty.pushSlot {}).pushText "").pushText ", 2"
    f.Built ∧ g.Built ∧ f.marks = g.marks ∧ f = g ∧ f.slotCount = 1 ∧ f.sql?.isSome = false := by
  intro f g
  have hf : f.Built :=
    .append (.pushSlot _ (.pushText _ (.ofText _))) (.append (.ofText _) (.ofText _))
  have hg : g.Built := .pushText _ (.pushText _ (.append (.ofText _) (.pushSlot _ .empty)))
  have hm : f.marks = g.marks := by decide
  exact ⟨hf, hg, hm, built_canonical.2.2.1 f g hf hg hm, by decide, by decide⟩

end Fragments
end SqlForms
