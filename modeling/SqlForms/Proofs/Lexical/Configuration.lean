import SqlForms.Proofs.Lexical.Statement

/-! # The configuration only changes the spelling

    A configuration says how strings are escaped and whether names are
    quoted.  Neither changes what a statement says: under any two of them a
    tree fails with the same error or leaves the same slots
    (`Compiler.agree_marks`), and a statement without slots is read, each time
    in its own dialect, as the same tokens once its strings are decoded and
    its names stand without quotes.

    For the first the step is an atom, and a run over the atoms follows by
    induction.  For the second the frames of the tree are compared atom by
    atom (`Compiler.sense_respelled`): what a statement is read as is its
    frame. -/

namespace SqlForms

namespace Lexical

/-! ## Reading without the spelling -/

/-- The text that is written between the quotes of a string: a doubled quote stands for one, and
    where a backslash escapes, it stands for the character after it. -/
def decode (d : Dialect) : List Char → List Char
  | [] => []
  | [c] => [c]
  | c :: c' :: cs =>
      if c = '\'' ∧ c' = '\'' ∨ c = '\\' ∧ d = .backslash then c' :: decode d cs
      else c :: decode d (c' :: cs)

/-- A character that has no special meaning stands for itself. -/
theorem decode_cons {d : Dialect} {c : Char} (hq : c ≠ '\'') (hb : ¬ (c = '\\' ∧ d = .backslash))
    (cs : List Char) : decode d (c :: cs) = c :: decode d cs := by
  cases cs with
  | nil => rfl
  | cons c' cs => rw [decode, if_neg (not_or.mpr ⟨fun h => hq h.1, hb⟩)]

/-- Decoding undoes escaping. -/
theorem decode_escape (d : Dialect) (cs : List Char) :
    decode d (cs.flatMap d.escapeChar) = cs := by
  induction cs with
  | nil => rfl
  | cons c cs ih =>
      rw [List.flatMap_cons, Dialect.escapeChar]
      by_cases hq : c = '\''
      · rw [if_pos hq]
        show decode d ('\'' :: '\'' :: cs.flatMap d.escapeChar) = _
        rw [decode, if_pos (.inl ⟨rfl, rfl⟩), ih, hq]
      · rw [if_neg hq]
        by_cases hb : c = '\\' ∧ d = .backslash
        · rw [if_pos hb]
          show decode d ('\\' :: '\\' :: cs.flatMap d.escapeChar) = _
          rw [decode, if_pos (.inr ⟨rfl, hb.2⟩), ih, hb.1]
        · rw [if_neg hb, List.singleton_append, decode_cons hq hb, ih]

/-- A token apart from its spelling: a string is decoded, and a quoted name is its characters. -/
def Token.unspelled (d : Dialect) : Token → List Token
  | .string written => [.string (decode d written)]
  | .name content => content.map .char
  | t => [t]

/-- The tokens of a text apart from their spelling. -/
def unspelled (d : Dialect) (ts : List Token) : List Token :=
  ts.flatMap (Token.unspelled d)

/-- What a text says in a dialect: its tokens apart from their spelling. -/
def reading? (d : Dialect) (s : String) : Option (List Token) :=
  (scan d s.toList).map (unspelled d)

variable {d d' : Dialect}

@[simp] private theorem unspelled_append (ts ts' : List Token) :
    unspelled d (ts ++ ts') = unspelled d ts ++ unspelled d ts' :=
  List.flatMap_append

/-- Characters have no spelling to be taken from. -/
@[simp] theorem unspelled_chars (cs : List Char) :
    unspelled d (cs.map .char) = cs.map .char := by
  induction cs with
  | nil => rfl
  | cons c cs ih =>
      show Token.char c :: unspelled d (cs.map .char) = _
      rw [ih]
      rfl

/-- Tokens with separators between lose their spelling one by one. -/
theorem unspelled_intercalate (sep : List Char) (tss : List (List Token)) :
    unspelled d ((sep.map Token.char).intercalate tss) =
      (sep.map Token.char).intercalate (tss.map (unspelled d)) := by
  induction tss with
  | nil => rfl
  | cons ts tss ih =>
      cases tss with
      | nil => simp
      | cons ts' tss =>
          rw [List.intercalate_cons_cons, unspelled_append, unspelled_append, unspelled_chars, ih,
            List.map_cons, List.map_cons, List.map_cons, List.intercalate_cons_cons]

/-- A fixed text has no spelling. -/
theorem unspelled_textTokens (cs : List Char) : unspelled d (textTokens cs) = textTokens cs := by
  rw [textTokens]
  split
  · exact unspelled_chars cs
  · cases h : wholeBody? cs with
    | none => rfl
    | some t =>
        obtain ⟨_, tag, content, -, rfl, -⟩ := wholeBody?_eq_some h
        rfl

/-- Apart from its spelling, a name is what it is without quotes. -/
theorem unspelled_nameTokens (quote : Bool) (cs : List Char) :
    unspelled d (nameTokens quote cs) = nameTokens false cs := by
  have hsegment : ∀ s, unspelled d (segmentTokens quote s) = segmentTokens false s := by
    intro s
    rw [segmentTokens, segmentTokens]
    by_cases hs : s = ['*']
    · rw [if_pos hs, if_pos hs]
      rfl
    · rw [if_neg hs, if_neg hs]
      cases quote with
      | false => exact unspelled_chars _
      | true => exact List.append_nil _
  rw [nameTokens, nameTokens]
  by_cases h : cs = ['*'] ∨ Name.isParameter cs
  · rw [if_pos h, if_pos h, unspelled_chars]
  · rw [if_neg h, if_neg h]
    show unspelled d ((['.'].map Token.char).intercalate _) = _
    rw [unspelled_intercalate, List.map_map]
    exact congrArg _ (List.map_congr_left fun s _ => hsegment s)

end Lexical

open Lexical

/-! ## Values -/

/-- A literal says the same in every dialect. -/
theorem Literal.unspelled_tokens (d d' : Dialect) (l : Literal) :
    unspelled d (l.tokens d) = unspelled d' (l.tokens d') := by
  have hstring : ∀ d : Dialect, unspelled d [.string (l.text.toList.flatMap d.escapeChar)] =
      [.string l.text.toList] := by
    intro d
    show [Token.string (decode d _)] = _
    rw [decode_escape]
  obtain ⟨text, embedding⟩ := l
  cases embedding with
  | verbatim => exact (unspelled_chars _).trans (unspelled_chars _).symm
  | string => exact (hstring d).trans (hstring d').symm
  | typed type =>
      show unspelled d ([.string _] ++ List.map .char _) =
        unspelled d' ([.string _] ++ List.map .char _)
      rw [unspelled_append, unspelled_append, hstring, hstring, unspelled_chars, unspelled_chars]

namespace Value

/-- Only the items of arrays are spelled before the literal is. -/
theorem literal_eq_literal {v : Value} (ha : ∀ x xs, v ≠ .array (x :: xs)) (d d' : Dialect) :
    v.literal d = v.literal d' := by
  cases v with
  | array items =>
      cases items with
      | nil => rw [literal, literal]
      | cons x xs => exact absurd rfl (ha x xs)
  | _ => rfl

/-- An array without its spelling is the array of its items without theirs. -/
theorem unspelled_arrayTokens (d : Dialect) (items : List (List Token)) :
    unspelled d (arrayTokens items) = arrayTokens (items.map (unspelled d)) := by
  rw [arrayTokens, unspelled_append, unspelled_append, unspelled_intercalate, unspelled_chars]
  rfl

mutual

/-- A value says the same in every dialect. -/
theorem unspelled_tokens (d d' : Dialect) (v : Value) :
    unspelled d (v.tokens d) = unspelled d' (v.tokens d') := by
  by_cases ha : ∃ x xs, v = .array (x :: xs)
  · obtain ⟨item, items, rfl⟩ := ha
    rw [tokens, tokens, unspelled_arrayTokens, unspelled_arrayTokens, List.map_cons, List.map_cons,
      unspelled_tokens d d' item, unspelled_tokensAll d d' items]
  · have ha : ∀ x xs, v ≠ .array (x :: xs) := fun x xs h => ha ⟨x, xs, h⟩
    rw [tokens.eq_2 d v ha, tokens.eq_2 d' v ha, scalarTokens, scalarTokens,
      literal_eq_literal ha d d']
    cases v.literal d' with
    | ok l => exact l.unspelled_tokens d d'
    | error x => rfl

/-- Values in both dialects differ in spelling only. -/
theorem unspelled_tokensAll (d d' : Dialect) (vs : List Value) :
    (tokensAll d vs).map (unspelled d) = (tokensAll d' vs).map (unspelled d') := by
  cases vs with
  | nil => rw [tokensAll, tokensAll]; rfl
  | cons v vs =>
      rw [tokensAll, tokensAll, List.map_cons, List.map_cons, unspelled_tokens d d' v,
        unspelled_tokensAll d d' vs]

end

end Value

/-! ## Outcomes -/

/-- Whether two results are the same error or related values. -/
inductive Agree {α β : Type} (R : α → β → Prop) : Except Error α → Except Error β → Prop where
  | error (x : Error) : Agree R (.error x) (.error x)
  | ok {a : α} {b : β} : R a b → Agree R (.ok a) (.ok b)

namespace Agree

variable {α β γ δ : Type} {R : α → β → Prop} {S : γ → δ → Prop}

/-- Two results that agree fail alike or succeed with related values. -/
theorem outcome {x : Except Error α} {y : Except Error β} (h : Agree R x y) :
    (∃ e, x = .error e ∧ y = .error e) ∨ ∃ a b, x = .ok a ∧ y = .ok b ∧ R a b := by
  cases h with
  | error e => exact .inl ⟨e, rfl, rfl⟩
  | ok hab => exact .inr ⟨_, _, rfl, rfl, hab⟩

/-- Steps that agree, one after the other, agree. -/
theorem bind {x : Except Error α} {y : Except Error β} {f : α → Except Error γ}
    {g : β → Except Error δ} (h : Agree R x y) (hfg : ∀ a b, R a b → Agree S (f a) (g b)) :
    Agree S (x >>= f) (y >>= g) := by
  cases h with
  | error x => exact .error x
  | ok hab => exact hfg _ _ hab

/-- Functions that keep the relation keep the agreement. -/
theorem map {x : Except Error α} {y : Except Error β} {f : α → γ} {g : β → δ} (h : Agree R x y)
    (hfg : ∀ a b, R a b → S (f a) (g b)) : Agree S (x.map f) (y.map g) := by
  cases h with
  | error x => exact .error x
  | ok hab => exact .ok (hfg _ _ hab)

/-- Results agree if what functions make of them does. -/
theorem of_map {x : Except Error α} {y : Except Error β} {f : α → γ} {g : β → δ}
    (h : Agree S (x.map f) (y.map g)) (hfg : ∀ a b, S (f a) (g b) → R a b) : Agree R x y := by
  cases x with
  | error x =>
      cases y with
      | error y => cases h; exact .error x
      | ok b => cases h
  | ok a =>
      cases y with
      | error y => cases h
      | ok b =>
          cases h with
          | ok hab => exact .ok (hfg a b hab)

/-- Equal results agree. -/
theorem of_eq {x y : Except Error α} (h : x = y) {R : α → α → Prop} (hR : ∀ a, R a a) :
    Agree R x y := by
  subst h
  cases x with
  | error x => exact .error x
  | ok a => exact .ok (hR a)

end Agree

namespace Value

mutual

/-- Whether a value has a literal does not depend on the dialect, and neither does the error. -/
theorem agree_literal (d d' : Dialect) (v : Value) :
    Agree (fun _ _ => True) (v.literal d) (v.literal d') := by
  by_cases ha : ∃ x xs, v = .array (x :: xs)
  · obtain ⟨item, items, rfl⟩ := ha
    rw [literal, literal]
    refine (agree_literal d d' item).bind fun _ _ _ => ?_
    exact (agree_literals d d' items).bind fun _ _ _ => .ok trivial
  · exact .of_eq (literal_eq_literal (fun x xs h => ha ⟨x, xs, h⟩) d d') fun _ => trivial

/-- Whether values have literals does not depend on the dialect. -/
theorem agree_literals (d d' : Dialect) (vs : List Value) :
    Agree (fun _ _ => True) (literals d vs) (literals d' vs) := by
  cases vs with
  | nil => exact .ok trivial
  | cons v vs =>
      rw [literals, literals]
      refine (agree_literal d d' v).bind fun _ _ _ => ?_
      exact (agree_literals d d' vs).bind fun _ _ _ => .ok trivial

end

end Value

/-- Nothing in the slots, and a look at the tokens apart from their spelling. -/
def Filling.unspelled (d : Dialect) : Filling d Token where
  isText _ := False
  view := Token.unspelled d
  hole := []
  part_of_isText h := h.elim

namespace Compiler

variable {c : Compiler}

/-- The same compiler with another configuration. -/
def respelled (c : Compiler) (k : Config) : Compiler :=
  { c with config := k }

/-- Whether rows of marks have the same slots. -/
def SameSlots (ms ms' : List Mark) : Prop :=
  Mark.slots ms = Mark.slots ms'

/-- What an atom writes has the same slots in every configuration, or fails for the same reason. -/
theorem agree_atomMarks (k : Config) {a : Atom} (ha : ∀ f, a ≠ .chosen f) :
    Agree SameSlots (c.atomMarks a) ((c.respelled k).atomMarks a) := by
  have htext : ∀ s s' : String, SameSlots (Mark.ofChars s.toList) (Mark.ofChars s'.toList) := by
    intro s s'
    rw [SameSlots, Mark.slots_ofChars, Mark.slots_ofChars]
  cases a with
  | text s => exact .ok (htext s s)
  | name n => exact .ok (htext _ _)
  | literal v =>
      refine Agree.map (R := fun _ _ => True) ?_ fun s s' _ => htext s s'
      exact (v.agree_literal _ _).map fun _ _ _ => trivial
  | slot p => exact .of_eq rfl fun _ => rfl
  | chosen f => exact absurd rfl (ha f)
  | refuse x => exact .error x

/-- Under two configurations a run fails with the same error or leaves the same slots. -/
theorem agree_marks (k : Config) {as : List Atom} (has : ∀ f, .chosen f ∉ as) :
    Agree SameSlots (c.marks as) ((c.respelled k).marks as) := by
  induction as with
  | nil => exact .ok rfl
  | cons a as ih =>
      have ha : ∀ f, a ≠ .chosen f := fun f hf => has f (hf ▸ List.mem_cons_self)
      have ih := ih fun f hf => has f (List.mem_cons_of_mem _ hf)
      refine (agree_atomMarks k ha).bind fun ms ms' hms => ih.bind fun ns ns' hns => .ok ?_
      rw [SameSlots, Mark.slots_append, Mark.slots_append, hms, hns]

/-- A tree is written with the same slots in every configuration, or fails for the same reason. -/
theorem agree_write (k : Config) {e : Expr} (he : ∀ f, .chosen f ∉ c.registry.atoms e) :
    Agree (fun f f' => f.slots = f'.slots) (c.write e) ((c.respelled k).write e) := by
  have h : Agree SameSlots ((c.write e).map Fragments.marks)
      (((c.respelled k).write e).map Fragments.marks) := by
    rw [marks_write, marks_write]
    exact agree_marks k he
  refine h.of_map fun f f' hs => ?_
  rwa [SameSlots, ← Fragments.slots_eq, ← Fragments.slots_eq] at hs

/-! ## Readings -/

/-- What a frame without holes says. -/
def sense (c : Compiler) (as : List Atom) : List Token :=
  (c.frame as).flatMap fun o => o.elim [] (Token.unspelled c.config.strings)

/-- A frame says the same under every configuration. -/
theorem sense_respelled (k : Config) (as : List Atom) : (c.respelled k).sense as = c.sense as := by
  have htokens : ∀ (d : Dialect) (ts : List Token),
      (ts.map some).flatMap (fun o => o.elim [] (Token.unspelled d)) = Lexical.unspelled d ts := by
    intro d ts
    rw [List.flatMap_map]
    rfl
  -- Texts have no spelling, names lose their quotes, and strings are decoded.
  have hatom : ∀ a, (c.respelled k).sense [a] = c.sense [a] := by
    intro a
    rw [sense, sense, frame, frame, List.flatMap_singleton, List.flatMap_singleton]
    cases a with
    | text s => rw [Config.tokens, Config.tokens, htokens, htokens, unspelled_textTokens,
        unspelled_textTokens]
    | name n => rw [Config.tokens, Config.tokens, htokens, htokens, unspelled_nameTokens,
        unspelled_nameTokens]
    | literal v =>
        rw [Config.tokens, Config.tokens, htokens, htokens]
        exact v.unspelled_tokens _ _
    | _ => rfl
  induction as with
  | nil => rfl
  | cons a as ih =>
      have hcons : ∀ c : Compiler, c.sense (a :: as) = c.sense [a] ++ c.sense as := by
        intro c
        simp [sense, frame]
      rw [hcons, hcons, hatom, ih]

/-- A tree without raw text and without slots is read as its frame says. -/
theorem reading?_of_write (hr : c.registry.get? = Registry.builtin.get?) {e : Expr}
    (he : e.rawFree) {f : Fragments} (hf : c.write e = .ok f) (hs : f.slots = []) :
    ∃ s, f.sql? = some s ∧
      reading? c.config.strings s = some (c.sense (c.registry.atoms e)) := by
  have hm : c.marks (c.registry.atoms e) = .ok f.marks := by
    rw [← c.marks_write e, hf]
    rfl
  obtain ⟨cs, hcs⟩ : ∃ cs, Mark.chars? f.marks = some cs := by
    cases hc : Mark.chars? f.marks with
    | some cs => exact ⟨cs, rfl⟩
    | none =>
        rw [Fragments.slots_eq] at hs
        exact absurd hs (Mark.chars?_eq_none.mp hc)
  refine ⟨String.ofList cs, by rw [Fragments.sql?_eq, hcs]; rfl, ?_⟩
  -- The marks are all characters, so nothing has to fill them.
  rw [Mark.chars?_eq_some.mp hcs] at hm
  obtain ⟨ts, hpart, hlooks⟩ := framed_tree (F := .unspelled _) hr he _ cs hm
    (Mark.filled_ofChars cs)
  rw [reading?, String.toList_ofList, hpart.scan_eq, Option.map_some]
  exact congrArg some hlooks

/-- **The configuration only changes the spelling.**  Under two configurations a tree fails with
    the same error, or it is written with the same slots.  If it holds no raw text and leaves no
    slot, the two texts, each read in its own dialect, say the same. -/
theorem write_respelled (c : Compiler)
    (hr : c.registry = .builtin ∨ c.registry = Registry.builtin.strict) (k : Config) (e : Expr) :
    (∃ x, c.write e = .error x ∧ (c.respelled k).write e = .error x) ∨
      ∃ f f', c.write e = .ok f ∧ (c.respelled k).write e = .ok f' ∧ f.slots = f'.slots ∧
        (e.rawFree → f.slots = [] → ∃ s s' ts, f.sql? = some s ∧ f'.sql? = some s' ∧
          reading? c.config.strings s = some ts ∧ reading? k.strings s' = some ts) := by
  have hget := Registry.get?_eq_builtin hr
  have hagree := agree_write (c := c) k (e := e) fun f =>
    Registry.chosen_not_mem_atoms (Registry.declared_of_builtin hr) f e
  rcases hagree.outcome with ⟨x, hx, hx'⟩ | ⟨f, f', hf, hf', hslots⟩
  · exact .inl ⟨x, hx, hx'⟩
  · refine .inr ⟨f, f', hf, hf', hslots, ?_⟩
    intro he hs
    obtain ⟨s, hsql, hread⟩ := reading?_of_write hget he hf hs
    obtain ⟨s', hsql', hread'⟩ :=
      reading?_of_write (c := c.respelled k) hget he hf' (hslots.symm.trans hs)
    rw [sense_respelled] at hread'
    exact ⟨s, s', _, hsql, hsql', hread, hread'⟩

/-- A condition on a qualified name and a text with a quote and a backslash. -/
def ownerIs : Expr :=
  .operation "=" [.identifier "users.name", .literal (.text "d'Or\\")]

/-- The text of that condition. -/
def ownerText (k : Config) : String :=
  "(" ++ Name.write k.quoteNames "users.name" ++ " = " ++ k.strings.quote "d'Or\\" ++ ")"

/-- The condition is written in every configuration as its text says. -/
theorem write_ownerIs (k : Config) :
    ∃ f, write ⟨.builtin, k, .static⟩ ownerIs = .ok f ∧ f.slots = [] ∧
      f.sql? = some (ownerText k) := by
  have hget : Registry.builtin.get? "=" = some (.twoOrMore "=") := by
    rw [Registry.get?_builtin]
    rfl
  have hlayout : Registry.builtin.layoutOf ownerIs =
      [.text "(", .part (.identifier "users.name"), .text " = ",
       .part (.literal (.text "d'Or\\")), .text ")"] := by
    rw [ownerIs, Registry.layoutOf, Registry.layout_eq Registry.Declared.builtin.next?_eq_none,
      hget]
    rfl
  have hmarks : marks ⟨.builtin, k, .static⟩ (Registry.builtin.atoms ownerIs) =
      .ok (Mark.ofChars (ownerText k).toList) := by
    rw [Registry.atoms_eq, hlayout]
    simp [Registry.atoms_eq, Registry.layoutOf, marks, atomMarks, Value.sql, Value.literal,
      Literal.sql, ownerText]
  obtain ⟨f, hf, hm⟩ := map_eq_ok.mp ((marks_write _ ownerIs).trans hmarks)
  refine ⟨f, hf, by rw [Fragments.slots_eq, hm, Mark.slots_ofChars], ?_⟩
  rw [Fragments.sql?_eq, hm, Mark.chars?_eq_some.mpr rfl, Option.map_some, String.ofList_toList]

/-- Quoted names and doubled quotes, and plain names and escapes. -/
theorem write_respelled_ownerIs :
    ownerIs.rawFree ∧ ∃ ts,
      reading? .standard "(\"users\".\"name\" = 'd''Or\\')" = some ts ∧
      reading? .backslash "(users.name = E'd''Or\\\\')" = some ts := by
  have hfree : ownerIs.rawFree := by decide
  have hquoted : ownerText ⟨.standard, true⟩ = "(\"users\".\"name\" = 'd''Or\\')" := by
    decide +kernel
  have hplain : ownerText ⟨.backslash, false⟩ = "(users.name = E'd''Or\\\\')" := by
    decide +kernel
  refine ⟨hfree, ?_⟩
  obtain ⟨f, hf, hslots, hsql⟩ := write_ownerIs ⟨.standard, true⟩
  obtain ⟨f', hf', -, hsql'⟩ := write_ownerIs ⟨.backslash, false⟩
  rcases write_respelled ⟨.builtin, ⟨.standard, true⟩, .static⟩ (.inl rfl) ⟨.backslash, false⟩
    ownerIs with ⟨x, hx, -⟩ | ⟨g, g', hg, hg', -, hread⟩
  · rw [hf] at hx
    cases hx
  · cases hf.symm.trans hg
    cases hf'.symm.trans hg'
    obtain ⟨s, s', ts, hs, hs', hts, hts'⟩ := hread hfree hslots
    cases hsql.symm.trans hs
    cases hsql'.symm.trans hs'
    rw [hquoted] at hts
    rw [hplain] at hts'
    exact ⟨ts, hts, hts'⟩

end Compiler
end SqlForms
