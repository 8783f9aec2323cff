import SqlForms.Proofs.Lexical.Statement

/-! # What a value cannot do to a statement

    A tree without raw text is a part of a statement however its slots are
    filled.  Two things follow.

    * A part ends outside of every string, quoted name and body, with all
      brackets closed.  So does every statement, every template with numbered
      parameters and every filled template;
    * a string is one token whatever it holds.  So filled with strings, a
      template has the skeleton of its frame, whatever the strings are
      (`Compiler.skeleton_fill`). -/

namespace SqlForms

open Lexical
open Registry (get?_eq_builtin)

/-! ## Values in slots -/

/-- Whether a value is written as one string. -/
def Value.isString : Value → Bool
  | .text _ => true
  | .bytes _ => true
  | _ => false

/-- A string is written, as one token. -/
theorem Value.part_of_isString {v : Value} (hv : v.isString) (d : Dialect) :
    ∃ s content, v.sql d = .ok s ∧ Part d s.toList [.string content] := by
  have string : ∀ text, ∃ s content,
      Literal.sql d ⟨text, .string⟩ = s ∧ Part d s.toList [.string content] :=
    fun text => ⟨_, _, rfl, Literal.part rfl⟩
  cases v with
  | text s =>
      obtain ⟨s', content, hs, hpart⟩ := string s
      exact ⟨s', content, congrArg Except.ok hs, hpart⟩
  | bytes bs =>
      obtain ⟨s', content, hs, hpart⟩ := string (byteText bs)
      exact ⟨s', content, congrArg Except.ok hs, hpart⟩
  | _ => cases hv

/-- A template that is filled had one value for each slot. -/
theorem Template.length_of_fill {t : Template} {vs : List Value} {s : String}
    (h : t.fill vs = .ok s) : vs.length = t.slotCount := by
  rw [fill] at h
  by_cases hlen : vs.length = t.slotCount
  · exact hlen
  · rw [if_neg hlen] at h
    cases h

/-- A template is filled with the texts of the values. -/
theorem Template.filled_of_fill {t : Template} {vs : List Value} {s : String}
    (h : t.fill vs = .ok s) :
    Mark.Filled (fun text => ∃ v ∈ vs, ∃ s, v.sql t.config.strings = .ok s ∧ text = s.toList)
      t.fragments.marks s.toList := by
  have hlen := length_of_fill h
  rw [t.fill_eq hlen] at h
  obtain ⟨cs, hcs, rfl⟩ := map_eq_ok.mp h
  rw [String.toList_ofList]
  refine Mark.filled_fill ?_ hcs
  rw [hlen, slotCount, slots, Fragments.slots_eq]

namespace Compiler

/-! ## Everything that is opened is closed -/

/-- What a tree without raw text writes is closed, with parts in the slots. -/
theorem isClosed_of_filled {c : Compiler} (hr : c.registry.get? = Registry.builtin.get?)
    {e : Expr} (he : e.rawFree) {ms : List Mark} (hm : c.marks (c.registry.atoms e) = .ok ms)
    {s : String} (hf : Mark.Filled (Filling.parts c.config.strings).isText ms s.toList) :
    isClosed c.config.strings s := by
  obtain ⟨ts, hpart, -⟩ := framed_tree (F := .parts _) hr he ms s.toList hm hf
  exact hpart.isClosed

/-- **Nothing escapes its place in a statement.**  Take a tree without raw text and the built-in
    operators.  Its text, its template with numbered parameters and its template filled with
    values that hold no raw text all end outside of every string, quoted name and body, with
    their brackets nested and closed. -/
theorem isClosed_of_rawFree (c : Compiler)
    (hr : c.registry = .builtin ∨ c.registry = Registry.builtin.strict) (e : Expr)
    (he : e.rawFree) :
    (∀ s, c.statement e = .ok s → isClosed c.config.strings s) ∧
      ∀ t, c.template e = .ok t →
        isClosed c.config.strings t.numbered ∧
          ∀ vs, (∀ v ∈ vs, v.rawFree) → ∀ s, t.fill vs = .ok s → isClosed c.config.strings s := by
  have hr := get?_eq_builtin hr
  refine ⟨fun s hs => ?_, fun t ht => ⟨?_, fun vs hvs s hs => ?_⟩⟩
  · exact isClosed_of_filled (c := c.static) hr he (statement_eq_ok.mp hs) (Mark.filled_ofChars _)
  · refine isClosed_of_filled (c := c.deferred) hr he (marks_of_template ht) ?_
    rw [Template.numbered, Template.numberParts_eq, String.toList_ofList]
    refine (Mark.filled_number 1 _).mono ?_
    rintro text ⟨n, rfl⟩
    refine ⟨_, part_parameter Nat.toDigits_ne_nil fun c hc => ?_⟩
    exact Nat.isDigit_of_mem_toDigits (by decide) (by decide) hc
  · refine isClosed_of_filled (c := c.deferred) hr he (marks_of_template ht) ?_
    refine (Template.filled_of_fill hs).mono ?_
    rintro text ⟨v, hv, s, hs, rfl⟩
    obtain ⟨l, hl, rfl⟩ := map_eq_ok.mp hs
    rw [config_of_template ht] at hl ⊢
    exact ⟨_, v.part_literal (hvs v hv) hl⟩

/-- A condition on a qualified name and a value to come. -/
def nameIs : Expr :=
  .operation "=" [.identifier "users.na\"me", .placeholder ⟨some "who"⟩]

/-- The compiler with the built-in operators that quotes all names. -/
def quoting (d : Dialect) : Compiler :=
  { registry := .builtin, config := { strings := d, quoteNames := true } }

/-- The template of the condition, in both dialects. -/
theorem template_nameIs (d : Dialect) :
    (quoting d).template nameIs =
      .ok ⟨⟨[.text "(\"users\".\"na_me\" = ", .slot ⟨some "who"⟩, .text ")"]⟩,
        (quoting d).config⟩ := by
  have hget : Registry.builtin.get? "=" = some (.twoOrMore "=") := by
    rw [Registry.get?_builtin]
    rfl
  have hlayout : Registry.builtin.layoutOf nameIs =
      [.text "(", .part (.identifier "users.na\"me"), .text " = ",
       .part (.placeholder ⟨some "who"⟩), .text ")"] := by
    rw [nameIs, Registry.layoutOf, Registry.layout_eq Registry.Declared.builtin.next?_eq_none,
      hget]
    rfl
  have hname : Name.write true "users.na\"me" = "\"users\".\"na_me\"" := by decide +kernel
  simp only [quoting, template, write, writeInto, Registry.atoms_eq _ nameIs, hlayout]
  simp [Registry.atoms_eq, Registry.layoutOf, writeAtoms, writeAtom, hname]
  rfl

/-- A text that tries to end its literal and the condition around it. -/
theorem isClosed_of_rawFree_nameIs :
    nameIs.rawFree ∧
      isClosed .standard "(\"users\".\"na_me\" = $1)" ∧
      isClosed .standard "(\"users\".\"na_me\" = '''); --')" := by
  have hfree : nameIs.rawFree := by decide
  have h := (isClosed_of_rawFree (quoting .standard) (.inl rfl) nameIs hfree).2 _
    (template_nameIs .standard)
  refine ⟨hfree, h.1, h.2 [.text "'); --"] (fun v hv => ?_) _ rfl⟩
  rw [List.mem_singleton.mp hv]
  rfl

/-! ## Strings do not change what is around them -/

/-- Filled with strings, a template has the skeleton of the frame of its tree. -/
theorem skeleton_fill {c : Compiler} (hr : c.registry.get? = Registry.builtin.get?) {e : Expr}
    (he : e.rawFree) {t : Template} (ht : c.template e = .ok t) {vs : List Value}
    (hlen : vs.length = t.slotCount) (hv : ∀ v ∈ vs, v.isString) :
    ∃ s, t.fill vs = .ok s ∧
      skeleton c.config.strings s =
        some ((c.frame (c.registry.atoms e)).flatMap fun o => o.elim [none] Token.skeleton) := by
  have hwritten : ∀ v ∈ vs, ∃ s, v.sql t.config.strings = .ok s := by
    intro v hmem
    obtain ⟨s, -, hs, -⟩ := Value.part_of_isString (hv v hmem) t.config.strings
    exact ⟨s, hs⟩
  obtain ⟨cs, hcs⟩ := Mark.exists_fill t.config.strings t.fragments.marks hwritten
  obtain ⟨s, hs⟩ : ∃ s, t.fill vs = .ok s := ⟨String.ofList cs, by rw [t.fill_eq hlen, hcs]; rfl⟩
  refine ⟨s, hs, ?_⟩
  -- Every slot holds a part that is one string, so it looks like a hole of the frame.
  have hf : Mark.Filled (Filling.strings c.config.strings).isText t.fragments.marks s.toList := by
    refine (Template.filled_of_fill hs).mono ?_
    rintro text ⟨v, hmem, s', hs', rfl⟩
    obtain ⟨s'', content, hs'', hpart⟩ := Value.part_of_isString (hv v hmem) t.config.strings
    rw [hs'] at hs''
    cases hs''
    rw [config_of_template ht] at hpart
    exact ⟨content, hpart⟩
  obtain ⟨ts, hpart, hlooks⟩ := framed_tree (c := c.deferred) (F := .strings _) hr he _ _
    (marks_of_template ht) hf
  rw [skeleton, hpart.scan_eq, Option.map_some]
  exact congrArg some hlooks

/-- **Strings cannot change the structure of a statement.**  A template of a tree without raw text
    and the built-in operators can be filled with any texts and bytes; the statements that two
    such rows of values make differ in string literals only. -/
theorem skeleton_fill_eq_skeleton_fill (c : Compiler)
    (hr : c.registry = .builtin ∨ c.registry = Registry.builtin.strict) (e : Expr)
    (he : e.rawFree) (t : Template) (ht : c.template e = .ok t) (vs ws : List Value)
    (hvs : vs.length = t.slotCount) (hws : ws.length = t.slotCount)
    (hv : ∀ v ∈ vs, v.isString) (hw : ∀ w ∈ ws, w.isString) :
    ∃ s s' k, t.fill vs = .ok s ∧ t.fill ws = .ok s' ∧
      skeleton c.config.strings s = some k ∧ skeleton c.config.strings s' = some k := by
  have hr := get?_eq_builtin hr
  obtain ⟨s, hs, hk⟩ := skeleton_fill hr he ht hvs hv
  obtain ⟨s', hs', hk'⟩ := skeleton_fill hr he ht hws hw
  exact ⟨s, s', _, hs, hs', hk, hk'⟩

/-- A plain text and one that tries to end its literal, where a backslash escapes. -/
theorem skeleton_fill_eq_skeleton_fill_nameIs :
    nameIs.rawFree ∧
      ∃ k, skeleton .backslash "(\"users\".\"na_me\" = E'ann')" = some k ∧
        skeleton .backslash "(\"users\".\"na_me\" = E'\\\\''); --')" = some k := by
  have hfree : nameIs.rawFree := by decide
  obtain ⟨s, s', k, hs, hs', hk, hk'⟩ :=
    skeleton_fill_eq_skeleton_fill (quoting .backslash) (.inl rfl) nameIs hfree _
      (template_nameIs .backslash) [.text "ann"] [.text "\\'); --"] rfl rfl
      (fun v hv => by rw [List.mem_singleton.mp hv]; rfl)
      (fun v hv => by rw [List.mem_singleton.mp hv]; rfl)
  cases hs
  cases hs'
  exact ⟨hfree, k, hk, hk'⟩

end Compiler
end SqlForms
