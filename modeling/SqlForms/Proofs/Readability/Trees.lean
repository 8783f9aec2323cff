import SqlForms.Proofs.Writing
import SqlForms.Proofs.Readability.Phrases

/-! # Expressions are uniquely readable

    Every word an operand begins with has a character of plain names, so a
    phrase tells the words of its operator from its operands.  Hence the
    text of an expression, followed by anything that may stand after an
    operand, is read in one way only: no two expressions are written the
    same. -/

namespace SqlForms

open Readability

/-- Expressions of integers, plain names, operations of the five classes and calls of functions
    with plain names.  An operation has as many operands as its class takes; the one operand of an
    operator between operands, which is written alone, is left out. -/
inductive Readable : Expr → Prop where
  | int (n : Int64) : Readable (.literal (.int n))
  | name {n : String} : isPlainName n.toList → Readable (.identifier n)
  | operation {tag : String} {o : Operator} {es : List Expr} :
      Registry.builtin.get? tag = some o → o.admits es.length →
      (∀ sql, o = .nary sql → es.length ≠ 1) → (∀ x ∈ es, Readable x) →
      Readable (.operation tag es)
  | call {tag : String} {es : List Expr} :
      isPlainName tag.toList → Registry.builtin.get? tag = none → (∀ x ∈ es, Readable x) →
      Readable (.operation tag es)

namespace Readability

variable {e e' : Expr} {r r' : List Char}

/-! ## Where an operand begins -/

/-- An expression without parentheses around it begins with a word that has a character of plain
    names; what follows the word opens a parenthesis, if there is anything. -/
structure Led (e : Expr) (w rest : List Char) : Prop where
  text_eq : text e = w ++ rest
  not_isDelimiter : ∀ c ∈ w, isDelimiter c = false
  exists_isNameChar : ∃ c ∈ w, isNameChar c
  opens : Ends (· == '(') rest

/-- An integer begins with itself. -/
theorem led_int (n : Int64) : Led (.literal (.int n)) (toString n.toInt).toList [] where
  text_eq := by rw [text_int, List.append_nil]
  not_isDelimiter := by
    intro c hc
    rcases of_mem_int hc with rfl | hd
    · rfl
    · exact not_isDelimiter_of_isNameChar (isNameChar_of_isDigit hd)
  exists_isNameChar := by
    obtain ⟨c, hc, hd⟩ := exists_isDigit_int n.toInt
    exact ⟨c, hc, isNameChar_of_isDigit hd⟩
  opens := ends_nil _

private theorem exists_mem_of_isPlainName {cs : List Char} (h : isPlainName cs) :
    ∃ c ∈ cs, isNameChar c := by
  cases cs with
  | nil => cases h
  | cons c cs => exact ⟨c, List.mem_cons_self, isNameChar_of_mem h List.mem_cons_self⟩

/-- A name begins with itself. -/
theorem led_name {n : String} (h : isPlainName n.toList) : Led (.identifier n) n.toList [] where
  text_eq := by rw [text_name h, List.append_nil]
  not_isDelimiter := fun _ hc => not_isDelimiter_of_isNameChar (isNameChar_of_mem h hc)
  exists_isNameChar := exists_mem_of_isPlainName h
  opens := ends_nil _

/-- A call begins with its name, and the parenthesis after it opens. -/
theorem led_call {tag : String} (h : isPlainName tag.toList)
    (hg : Registry.builtin.get? tag = none) (es : List Expr) :
    Led (.operation tag es) tag.toList ('(' :: textOf (.joined ", " es) ++ [')']) where
  text_eq := by
    rw [text_eq, layoutOf_call hg]
    simp [Registry.call, Layout.concat, spelling, chars_of_isPlainName h]
  not_isDelimiter := fun _ hc => not_isDelimiter_of_isNameChar (isNameChar_of_mem h hc)
  exists_isNameChar := exists_mem_of_isPlainName h
  opens := ends_cons.mpr rfl

namespace Led

variable {w w' rest rest' : List Char}

/-- After an expression without parentheses the text goes on with a delimiter. -/
theorem ends (h : Led e w rest) (hr : Ends isStop r) : Ends isDelimiter (rest ++ r) := by
  cases rest with
  | nil => exact hr.delimiter
  | cons c rest =>
      have hc := ends_cons.mp h.opens
      rw [beq_iff_eq] at hc
      subst hc
      exact ends_cons.mpr rfl

/-- The word at the front is known, and with it what follows. -/
theorem append_inj (h : Led e w rest) (h' : Led e' w' rest') (hr : Ends isStop r)
    (hr' : Ends isStop r') (heq : text e ++ r = text e' ++ r') :
    w = w' ∧ rest ++ r = rest' ++ r' := by
  rw [h.text_eq, h'.text_eq, List.append_assoc, List.append_assoc] at heq
  exact run_append_inj h.not_isDelimiter h'.not_isDelimiter (h.ends hr) (h'.ends hr') heq

/-- It does not begin with a parenthesis. -/
theorem ne_parenthesis (h : Led e w rest) {cs : List Char} : text e ++ r ≠ '(' :: cs := by
  intro heq
  obtain ⟨c, hc, -⟩ := h.exists_isNameChar
  rw [h.text_eq] at heq
  cases w with
  | nil => cases hc
  | cons x w =>
      obtain ⟨rfl, -⟩ := List.cons.inj heq
      exact absurd (h.not_isDelimiter '(' List.mem_cons_self) (by decide)

/-- It is not the word of an operator. -/
theorem ne_word (h : Led e w rest) {v : List Char} (hv : ∀ c ∈ v, isOperatorChar c)
    (hr : Ends isStop r) (hr' : Ends isStop r') : v ++ r ≠ text e ++ r' := by
  intro heq
  rw [h.text_eq, List.append_assoc] at heq
  obtain ⟨rfl, -⟩ := run_append_inj (fun c hc => (isOperatorChar_iff.mp (hv c hc)).1)
    h.not_isDelimiter hr.delimiter (h.ends hr') heq
  obtain ⟨c, hc, hn⟩ := h.exists_isNameChar
  rw [(isOperatorChar_iff.mp (hv c hc)).2] at hn
  cases hn

end Led

/-- The text of an operation, and the phrase in its parentheses. -/
theorem text_operation {tag : String} {o : Operator} {es : List Expr}
    (hg : Registry.builtin.get? tag = some o) (ho : o.admits es.length)
    (hn : ∀ sql, o = .nary sql → es.length ≠ 1) :
    ∃ sql items cs, o.sql? = some sql ∧ Phrase sql es items ∧ spaced items = ' ' :: cs ∧
      text (.operation tag es) = '(' :: cs ++ [')'] := by
  rw [text_eq, layoutOf_operation hg]
  exact exists_phrase tag ho hn

/-- No expression begins with the word of an operator, or with nothing. -/
theorem word_ne_text (he : Readable e) {v : List Char} (hv : ∀ c ∈ v, isOperatorChar c)
    (hr : Ends isStop r) (hr' : Ends isStop r') : v ++ r ≠ text e ++ r' := by
  cases he with
  | int n => exact (led_int n).ne_word hv hr hr'
  | name h => exact (led_name h).ne_word hv hr hr'
  | call h hg _ => exact (led_call h hg _).ne_word hv hr hr'
  | operation hg ho hn _ =>
      obtain ⟨_, _, cs, -, -, -, htext⟩ := text_operation hg ho hn
      rw [htext]
      intro heq
      cases v with
      | nil =>
          rw [List.nil_append] at heq
          rw [heq] at hr
          exact absurd (ends_cons.mp hr) (by decide)
      | cons c v =>
          obtain ⟨rfl, -⟩ := List.cons.inj heq
          exact absurd (hv '(' List.mem_cons_self) (by decide)

/-! ## Reading -/

/-- Whether an expression is the only one with its text, whatever may follow. -/
def Unique (e : Expr) : Prop :=
  ∀ e' r r', Readable e' → Ends isStop r → Ends isStop r' → text e ++ r = text e' ++ r' →
    e = e' ∧ r = r'

/-- The arguments of a call are read up to its closing parenthesis. -/
theorem arguments_inj {es es' : List Expr} (hes : ∀ x ∈ es, Readable x)
    (hes' : ∀ x ∈ es', Readable x) (hu : ∀ x ∈ es, Unique x)
    (h : textOf (.joined ", " es) ++ ')' :: r = textOf (.joined ", " es') ++ ')' :: r') :
    es = es' ∧ r = r' := by
  have hl : Leads ", ".toList := ⟨',', [' '], rfl, rfl, by decide⟩
  have hrow : ∀ x xs r, textOf (.joined ", " (x :: xs)) ++ ')' :: r =
      text x ++ row ", ".toList text xs r := by
    intro x xs r
    rw [textOf_joined, row, List.append_assoc]
  -- a closing parenthesis is not the front of an argument
  have hnone : ∀ {x xs r r'}, Readable x →
      ')' :: r ≠ textOf (.joined ", " (x :: xs)) ++ ')' :: r' := by
    intro x xs r r' hx
    rw [hrow]
    exact word_ne_text hx (v := []) (by simp) (ends_cons.mpr rfl) (ends_row hl xs)
  cases es with
  | nil =>
      cases es' with
      | nil => exact ⟨rfl, (List.cons.inj h).2⟩
      | cons x' es' => exact absurd h (hnone (hes' x' List.mem_cons_self))
  | cons x es =>
      cases es' with
      | nil => exact absurd h.symm (hnone (hes x List.mem_cons_self))
      | cons x' es' =>
          rw [hrow, hrow] at h
          refine row_inj hl (fun x hx y hy r r' => hu x hx y r r' (hes' y hy)) ?_
          rw [row_cons, row_cons, h]

/-- The phrase of an operation is read up to its closing parenthesis. -/
theorem phrase_inj {sql sql' : String} {es es' : List Expr} {items items' : List Item}
    (hp : Phrase sql es items) (hp' : Phrase sql' es' items')
    (hw : ∀ w, .word w ∈ words sql → ∀ c ∈ w, isOperatorChar c)
    (hw' : ∀ w, .word w ∈ words sql' → ∀ c ∈ w, isOperatorChar c)
    (hes : ∀ x ∈ es, Readable x) (hes' : ∀ x ∈ es', Readable x) (hu : ∀ x ∈ es, Unique x)
    (h : spaced items ++ ')' :: r = spaced items' ++ ')' :: r') : items = items' ∧ r = r' := by
  have hmem : ∀ {sql es items} {x : Expr}, Phrase sql es items → .operand x ∈ items → x ∈ es := by
    intro sql es items x hp hx
    rw [← hp.operands_eq]
    exact List.mem_filterMap.mpr ⟨_, hx, rfl⟩
  refine row_inj ⟨' ', [], rfl, rfl, by decide⟩ ?_ h
  intro i hi j hj r r' hr hr' heq
  cases i with
  | word v =>
      have hv := hw v (hp.mem_words v hi)
      cases j with
      | word v' =>
          have hv' := hw' v' (hp'.mem_words v' hj)
          obtain ⟨rfl, hrest⟩ := run_append_inj (fun c hc => (isOperatorChar_iff.mp (hv c hc)).1)
            (fun c hc => (isOperatorChar_iff.mp (hv' c hc)).1) hr.delimiter hr'.delimiter heq
          exact ⟨rfl, hrest⟩
      -- An operator has no character of names, and every operand without parentheses has one.
      | operand y => exact absurd heq (word_ne_text (hes' y (hmem hp' hj)) hv hr hr')
  | operand x =>
      have hx := hmem hp hi
      cases j with
      | word v' =>
          have hv' := hw' v' (hp'.mem_words v' hj)
          exact absurd heq.symm (word_ne_text (hes x hx) hv' hr' hr)
      | operand y =>
          obtain ⟨rfl, hrest⟩ := hu x hx y r r' (hes' y (hmem hp' hj)) hr hr' heq
          exact ⟨rfl, hrest⟩

/-- What stands after an operand opens no parenthesis. -/
theorem not_ends_isStop {cs : List Char} : ¬ Ends isStop ('(' :: cs) := by
  rw [ends_cons]
  decide

/-- **Unique reading.**  An expression is known from its text, whatever may follow. -/
theorem unique_of_readable (he : Readable e) : Unique e := by
  -- The induction is on the first expression.  The second is split only to see that it is of the
  -- same kind; then words are compared, or the operands in the parentheses.
  induction he with
  | int n =>
      intro e' r r' he' hr hr' h
      have hled := led_int n
      cases he' with
      | int n' =>
          obtain ⟨hw, hrest⟩ := hled.append_inj (led_int n') hr hr' h
          rw [Int64.toInt_inj.mp (int_text_injective hw)]
          exact ⟨rfl, hrest⟩
      | name h' =>
          exact absurd (hled.append_inj (led_name h') hr hr' h).1 (int_ne_plainName _ h')
      | call h' hg' _ =>
          exact absurd (hled.append_inj (led_call h' hg' _) hr hr' h).1 (int_ne_plainName _ h')
      | operation hg' ho' hn' _ =>
          obtain ⟨_, _, _, -, -, -, htext⟩ := text_operation hg' ho' hn'
          rw [htext] at h
          exact absurd h hled.ne_parenthesis
  | name hn =>
      intro e' r r' he' hr hr' h
      have hled := led_name hn
      cases he' with
      | int n' =>
          exact absurd (hled.append_inj (led_int n') hr hr' h).1.symm (int_ne_plainName _ hn)
      | name h' =>
          obtain ⟨hw, hrest⟩ := hled.append_inj (led_name h') hr hr' h
          rw [String.toList_inj.mp hw]
          exact ⟨rfl, hrest⟩
      | call h' hg' _ =>
          -- The same word, but only the call opens a parenthesis after it.
          have hrest : r = _ := (hled.append_inj (led_call h' hg' _) hr hr' h).2
          rw [hrest] at hr
          exact absurd hr not_ends_isStop
      | operation hg' ho' hn' _ =>
          obtain ⟨_, _, _, -, -, -, htext⟩ := text_operation hg' ho' hn'
          rw [htext] at h
          exact absurd h hled.ne_parenthesis
  | @operation tag o es hg ho hn hes ih =>
      intro e' r r' he' hr hr' h
      obtain ⟨sql, items, cs, hs, hp, hspaced, htext⟩ := text_operation hg ho hn
      rw [htext] at h
      cases he' with
      | int n' => exact absurd h.symm (led_int n').ne_parenthesis
      | name h' => exact absurd h.symm (led_name h').ne_parenthesis
      | call h' hg' _ => exact absurd h.symm (led_call h' hg' _).ne_parenthesis
      | @operation tag' o' es' hg' ho' hn' hes' =>
          obtain ⟨sql', items', cs', hs', hp', hspaced', htext'⟩ := text_operation hg' ho' hn'
          -- With a space before the first item too, both phrases are rows of spaced items.
          have hitems : spaced items ++ ')' :: r = spaced items' ++ ')' :: r' := by
            rw [htext'] at h
            rw [hspaced, hspaced']
            simpa using h
          obtain ⟨rfl, hrest⟩ := phrase_inj hp hp' (fun _ hw _ => isOperatorChar_of_mem hg hs hw)
            (fun _ hw _ => isOperatorChar_of_mem hg' hs' hw) hes hes' ih hitems
          obtain ⟨rfl, rfl⟩ := hp.inj hp'
          rw [tag_eq_of_sql? hg hs hg' hs']
          exact ⟨rfl, hrest⟩
  | @call tag es hn hg hes ih =>
      intro e' r r' he' hr hr' h
      have hled := led_call hn hg es
      cases he' with
      | int n' =>
          exact absurd (hled.append_inj (led_int n') hr hr' h).1.symm (int_ne_plainName _ hn)
      | name h' =>
          have hrest : _ = r' := (hled.append_inj (led_name h') hr hr' h).2
          rw [← hrest] at hr'
          exact absurd hr' not_ends_isStop
      | @call tag' es' h' hg' hes' =>
          obtain ⟨hw, hrest⟩ := hled.append_inj (led_call h' hg' es') hr hr' h
          obtain ⟨rfl, hr⟩ := arguments_inj hes hes' ih (by simpa using hrest)
          rw [String.toList_inj.mp hw]
          exact ⟨rfl, hr⟩
      | operation hg' ho' hn' _ =>
          obtain ⟨_, _, _, -, -, -, htext⟩ := text_operation hg' ho' hn'
          rw [htext] at h
          exact absurd h hled.ne_parenthesis

/-! ## Writing -/

variable {c : Compiler}

/-- Whether a compiler writes an atom as it is spelled. -/
def Spelled (c : Compiler) (a : Atom) : Prop :=
  c.atomMarks a = .ok (Mark.ofChars (spelling a))

/-- Atoms that are written as they are spelled are written as their text. -/
theorem marks_of_spelled {as : List Atom} (h : ∀ a ∈ as, Spelled c a) :
    c.marks as = .ok (Mark.ofChars (as.flatMap spelling)) := by
  induction as with
  | nil => rfl
  | cons a as ih =>
      have ha : c.atomMarks a = _ := h a List.mem_cons_self
      rw [Compiler.marks, ha, ih fun b hb => h b (List.mem_cons_of_mem _ hb)]
      simp

private theorem spelled_text (s : String) : Spelled c (.text s) := rfl

/-- Without quoting, a name is written as it is spelled. -/
theorem spelled_name (hq : c.config.quoteNames = false) (n : String) : Spelled c (.name n) := by
  show Except.ok (Mark.ofChars (Name.write c.config.quoteNames n).toList) = _
  rw [hq, Name.write, String.toList_ofList]
  rfl

/-- An operation with as many operands as its class takes is written without a fault. -/
theorem layout_clean (tag : String) {o : Operator} {es : List Expr} (ho : o.admits es.length) :
    (o.layout tag es).Clean := by
  have hamid : ∀ sql xs, (Operator.amid sql xs).Clean := by
    intro sql xs
    simp [Operator.amid]
  cases o with
  | unary sql =>
      obtain ⟨x, rfl⟩ := List.length_eq_one_iff.mp (beq_iff_eq.mp ho)
      simp [Operator.layout, Operator.before]
  | trailing sql =>
      obtain ⟨x, rfl⟩ := List.length_eq_one_iff.mp (beq_iff_eq.mp ho)
      simp [Operator.layout]
  | nary sql =>
      simp only [Operator.layout]
      split
      · cases ho
      · simp
      · exact hamid sql _
  | twoOrMore sql =>
      cases es with
      | nil => cases ho
      | cons x es =>
          cases es with
          | nil => cases ho
          | cons y es => exact hamid sql _
  | naryOrUnary sql =>
      simp only [Operator.layout]
      split
      · cases ho
      · simp [Operator.before]
      · exact hamid sql _
  | custom form => cases ho
  | continued form next => cases ho

/-- An operator that admits a number of operands is declarative. -/
theorem isDeclarative_of_admits {o : Operator} {n : Nat} (ho : o.admits n) : o.isDeclarative := by
  cases o with
  | custom form => cases ho
  | continued form next => cases ho
  | _ => rfl

/-- The atoms of a layout of texts and operands. -/
theorem eq_text_of_mem {l : Layout} (hs : l.Simple) (hc : l.Clean) {a : Atom}
    (h : .atom a ∈ l) : ∃ s, a = .text s := by
  have hsimple := hs _ h
  cases a with
  | text s => exact ⟨s, rfl⟩
  | refuse x => exact absurd h (hc x)
  | _ => cases hsimple

/-- The parts of an expression are readable: none of its operands is a list. -/
theorem readable_of_part_mem (he : Readable e) {x : Expr}
    (h : .part x ∈ Registry.builtin.layoutOf e) : Readable x := by
  obtain ⟨es, hform, hreach⟩ := Registry.reach_of_part_mem h
  have hes : ∀ y ∈ es, Readable y := by
    rcases hform with rfl | ⟨tag, rfl⟩
    · cases he
    · cases he with
      | operation _ _ _ hes => exact hes
      | call _ _ hes => exact hes
  clear h
  induction hreach with
  | operand hm => exact hes _ hm
  | item _ _ ih => cases ih

/-- Where names are not quoted, every atom of an expression is written as it is spelled. -/
theorem spelled_atoms (hq : c.config.quoteNames = false) (e : Expr) (he : Readable e) :
    ∀ a ∈ Registry.builtin.atoms e, Spelled c a := by
  induction e using Registry.builtin.induction with
  | step e ih =>
      intro a ha
      rw [Registry.atoms_eq, Registry.mem_atomsOf] at ha
      rcases ha with ha | ⟨x, hx, ha⟩
      · cases he with
        | int n => cases List.mem_singleton.mp ha; rfl
        | name hn => cases List.mem_singleton.mp ha; exact spelled_name hq _
        | operation hg ho hn hes =>
            rw [layoutOf_operation hg] at ha
            obtain ⟨s, rfl⟩ := eq_text_of_mem
              (Operator.layout_sound _ (isDeclarative_of_admits ho) _).simple (layout_clean _ ho) ha
            exact spelled_text s
        | @call tag es hn hg hes =>
            rw [layoutOf_call hg] at ha
            rcases List.mem_cons.mp ha with ha | ha
            · cases ha
              exact spelled_name hq tag
            · obtain ⟨s, rfl⟩ := eq_text_of_mem (Layout.Sound.simple (by simp)) (by simp) ha
              exact spelled_text s
      · exact ih x hx (readable_of_part_mem he hx) a ha

end Readability

namespace Compiler

open Readability

/-- The statement of an expression, where names are not quoted. -/
theorem statement_of_readable {c : Compiler} (hr : c.registry = .builtin)
    (hq : c.config.quoteNames = false) {e : Expr} (he : Readable e) :
    c.statement e = .ok (String.ofList (text e)) := by
  rw [statement_eq_ok, hr, String.toList_ofList]
  exact marks_of_spelled (spelled_atoms (c := c.static) hq e he)

/-- **Unique readability.**  Under the built-in registry and with names that are not quoted, every
    readable expression has a statement, and no two of them have the same. -/
theorem statement_inj_of_readable (c : Compiler) (hr : c.registry = .builtin)
    (hq : c.config.quoteNames = false) {e e' : Expr} (he : Readable e) (he' : Readable e') :
    ∃ s s', c.statement e = .ok s ∧ c.statement e' = .ok s' ∧ (s = s' → e = e') := by
  refine ⟨_, _, statement_of_readable hr hq he, statement_of_readable hr hq he', ?_⟩
  intro h
  have htext : text e ++ [] = text e' ++ [] := by rw [String.ofList_injective h]
  exact (unique_of_readable he e' [] [] he' (ends_nil _) (ends_nil _) htext).1

/-- A negative number taken away, `(a - -5)`, and a negated call taken away, `(a - (- f(5)))`, are
    not the same. -/
theorem statement_inj_of_readable_minus :
    let negative := Expr.operation "-" [.identifier "a", .literal (.int (-5))]
    let negated := Expr.operation "-"
      [.identifier "a", .operation "-" [.operation "f" [.literal (.int 5)]]]
    Readable negative ∧ Readable negated ∧
      ∃ s s', Compiler.statement ⟨.builtin, {}, .static⟩ negative = .ok s ∧
        Compiler.statement ⟨.builtin, {}, .static⟩ negated = .ok s' ∧ s ≠ s' := by
  intro negative negated
  have hminus : Registry.builtin.get? "-" = some (.naryOrUnary "-") := by
    rw [Registry.get?_builtin]
    rfl
  have hf : Registry.builtin.get? "f" = none := by
    rw [Registry.get?_builtin]
    rfl
  have hname : Readable (.identifier "a") := .name (by decide)
  have hnegative : Readable negative := by
    refine .operation hminus rfl (by simp) ?_
    simp [hname, Readable.int]
  have hnegated : Readable negated := by
    refine .operation hminus rfl (by simp) ?_
    have hcall : Readable (.operation "f" [.literal (.int 5)]) :=
      .call (by decide) hf (by simp [Readable.int])
    have hinner : Readable (.operation "-" [.operation "f" [.literal (.int 5)]]) :=
      .operation hminus rfl (by simp) (by simp [hcall])
    simp [hname, hinner]
  obtain ⟨s, s', hs, hs', hinj⟩ :=
    statement_inj_of_readable ⟨.builtin, {}, .static⟩ rfl rfl hnegative hnegated
  refine ⟨hnegative, hnegated, s, s', hs, hs', fun h => ?_⟩
  simp [negative, negated] at hinj
  exact hinj h

end Compiler
end SqlForms
