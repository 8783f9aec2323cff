import SqlForms.Compiler
import SqlForms.Proofs.Lexical.Delimiter

/-! # How the parts of a statement are read

    A statement is written in parts, and each part is read on its own: as
    the same tokens, whatever comes after it.  The one thing that matters is
    a quote right after a part, which would double the quote that closes a
    string, or make a string of an `E` before it.

    A part is *soft* where a quote may not follow it.  `Reads d a b cs ts`
    says that after something of softness `a` the characters `cs` are read as
    `ts` and leave softness `b`; such readings compose (`Reads.append`).

    * Text of quiet characters is read character by character;
    * a string literal is read as one string, and is soft;
    * a body between its delimiters is read as one body;
    * a numbered parameter is read character by character, as no fence
      starts with a digit. -/

namespace SqlForms.Lexical

variable {d : Dialect} {a b : Bool}

/-! ## Readings -/

/-- Whether a text may follow: only a text with a quote in front may not, after a soft part or
    where strings do not start with a quote. -/
def Fits (d : Dialect) (soft : Bool) (rest : List Char) : Prop :=
  rest.head? = some '\'' → d = .standard ∧ soft = false

/-- After something of softness `before`, the characters are read as the tokens and leave softness
    `after`. -/
def Reads (d : Dialect) (before after : Bool) (cs : List Char) (ts : List Token) : Prop :=
  ∀ rest, Fits d after rest →
    Fits d before (cs ++ rest) ∧ scan d (cs ++ rest) = (scan d rest).map (ts ++ ·)

private theorem Fits.to_hard {rest : List Char} (h : Fits d b rest) : Fits d false rest :=
  fun hq => ⟨(h hq).1, rfl⟩

private theorem fits_of_ne {c : Char} {cs : List Char} (h : c ≠ '\'') : Fits d b (c :: cs) :=
  fun hq => absurd (Option.some.inj hq) h

private theorem fits_nil : Fits d b [] := by
  intro hq
  cases hq

namespace Reads

/-- Nothing is read as nothing, and is no less soft than what was before. -/
theorem nil (h : a = true → b = true) : Reads d a b [] [] := by
  intro rest hr
  refine ⟨?_, by simp⟩
  cases a with
  | true => exact h rfl ▸ hr
  | false => exact hr.to_hard

/-- Texts that are read one after the other are read together, where softness agrees between them.
    -/
theorem append {c : Bool} {cs cs' : List Char} {ts ts' : List Token} (h : Reads d a b cs ts)
    (h' : Reads d b c cs' ts') : Reads d a c (cs ++ cs') (ts ++ ts') := by
  intro rest hr
  obtain ⟨hfit', hscan'⟩ := h' rest hr
  obtain ⟨hfit, hscan⟩ := h (cs' ++ rest) hfit'
  rw [List.append_assoc]
  refine ⟨hfit, ?_⟩
  rw [hscan, hscan']
  cases scan d rest <;> simp

/-- What needs less before it, or more after it, is read the same way. -/
theorem weaken {a' b' : Bool} {cs : List Char} {ts : List Token} (h : Reads d a b cs ts)
    (ha : a' = true → a = true) (hb : b = true → b' = true) : Reads d a' b' cs ts := by
  have := ((nil ha).append h).append (nil hb)
  rwa [List.nil_append, List.nil_append, List.append_nil, List.append_nil] at this

/-- A token that is read off the front of every text is a reading. -/
theorem token {c : Char} {cs : List Char} {t : Token} (hc : c = '\'' → d = .standard ∧ a = false)
    (h : ∀ rest, Fits d b rest → token? d c (cs ++ rest) = some (t, rest)) :
    Reads d a b (c :: cs) [t] := by
  intro rest hr
  refine ⟨fun hq => hc (Option.some.inj hq), ?_⟩
  rw [List.cons_append, scan_cons (h rest hr)]
  rfl

/-- Parts divided by a separator are read one by one. -/
theorem intercalate {α : Type} {f : α → List Char} {g : α → List Token} {sep : List Char}
    {seps : List Token} {xs : List α} (hsep : Reads d true false sep seps)
    (h : ∀ x ∈ xs, Reads d false true (f x) (g x)) :
    Reads d false true (sep.intercalate (xs.map f)) (seps.intercalate (xs.map g)) := by
  induction xs with
  | nil => exact nil fun h => (Bool.false_ne_true h).elim
  | cons x xs ih =>
      have hx := h x List.mem_cons_self
      have ih := ih fun y hy => h y (List.mem_cons_of_mem _ hy)
      cases xs with
      | nil => simpa [List.intercalate] using hx
      | cons y ys =>
          have := hx.append (hsep.append ih)
          simpa [List.intercalate, List.intersperse] using this

end Reads

/-! ## Brackets -/

/-- Whether tokens leave all brackets as they were. -/
def Level (ts : List Token) : Prop :=
  ∀ σ, nest σ ts = some σ

private theorem level_nil : Level [] := fun _ => rfl

/-- Tokens that leave the brackets as they were do so in a row. -/
theorem Level.append {ts ts' : List Token} (h : Level ts) (h' : Level ts') :
    Level (ts ++ ts') := by
  intro σ
  rw [nest_append, h σ]
  exact h' σ

/-- So they do with separators between. -/
theorem Level.intercalate {α : Type} {g : α → List Token} {seps : List Token} {xs : List α}
    (hsep : Level seps) (h : ∀ x ∈ xs, Level (g x)) :
    Level (seps.intercalate (xs.map g)) := by
  induction xs with
  | nil => exact level_nil
  | cons x xs ih =>
      have hx := h x List.mem_cons_self
      have ih := ih fun y hy => h y (List.mem_cons_of_mem _ hy)
      cases xs with
      | nil => simpa [List.intercalate] using hx
      | cons y ys =>
          have := hx.append (hsep.append ih)
          simpa [List.intercalate, List.intersperse] using this

/-- A part of a statement: characters that are read as tokens of their own, leave all brackets as
    they were, and are soft. -/
structure Part (d : Dialect) (cs : List Char) (ts : List Token) : Prop where
  reads : Reads d false true cs ts
  level : Level ts

/-- A part is a text with its tokens. -/
theorem Part.scan_eq {cs : List Char} {ts : List Token} (h : Part d cs ts) :
    scan d cs = some ts := by
  have hscan := (h.reads [] fits_nil).2
  rw [List.append_nil, scan_nil, Option.map_some, List.append_nil] at hscan
  exact hscan

/-- A part ends outside of every string, quoted name and body, with its brackets closed. -/
theorem Part.isClosed {s : String} {ts : List Token} (h : Part d s.toList ts) : isClosed d s := by
  rw [Lexical.isClosed, h.scan_eq]
  exact beq_iff_eq.mpr (h.level [])

/-! ## Quiet and plain text -/

/-- Whether a character opens neither a string nor a quoted name nor a body. -/
def isQuiet (c : Char) : Bool :=
  c != '\'' && c != '"' && c != '$'

/-- Whether a character is a bracket. -/
def isBracket (c : Char) : Bool :=
  c == '(' || c == ')' || c == '[' || c == ']'

/-- Whether a character is quiet and no bracket. -/
def isPlain (c : Char) : Bool :=
  isQuiet c && !isBracket c

/-- A plain character opens nothing. -/
theorem isQuiet_of_isPlain {c : Char} (h : isPlain c) : isQuiet c :=
  (Bool.and_eq_true_iff.mp h).1

/-- Any other character leaves the brackets as they were. -/
theorem bracket_of_not_isBracket {c : Char} (h : isBracket c = false) (σ : List Char) :
    bracket c σ = some σ := by
  simp only [isBracket, Bool.or_eq_false_iff, beq_eq_false_iff_ne, ne_eq] at h
  obtain ⟨⟨⟨h1, h2⟩, h3⟩, h4⟩ := h
  simp [bracket, h1, h2, h3, h4]

/-- A class of characters without those that open or close something is plain. -/
theorem isPlain_of_class {p : Char → Bool}
    (hp : ['\'', '"', '$', '(', ')', '[', ']'].all fun x => !p x) {c : Char} (h : p c) :
    isPlain c := by
  have hne : ∀ x ∈ ['\'', '"', '$', '(', ')', '[', ']'], c ≠ x := by
    rintro x hx rfl
    have hx := List.all_eq_true.mp hp c hx
    rw [h] at hx
    cases hx
  simpa [isPlain, isQuiet, isBracket, and_assoc] using hne

/-- A quiet character is read as itself. -/
theorem reads_char {c : Char} (h : isQuiet c) : Reads d a b [c] [.char c] := by
  simp only [isQuiet, Bool.and_eq_true, bne_iff_ne, ne_eq] at h
  obtain ⟨⟨hs, hn⟩, hb⟩ := h
  refine .token (fun hc => absurd hc hs) fun rest hr => ?_
  have he : ¬ (c = 'E' ∧ d = .backslash ∧ rest.head? = some '\'') := by
    rintro ⟨-, rfl, hq⟩
    cases (hr hq).1
  rw [List.nil_append, token?, if_neg hs, if_neg hn, if_neg hb, if_neg he]

/-- Quiet text is read character by character. -/
theorem reads_chars {cs : List Char} (h : ∀ c ∈ cs, isQuiet c)
    (hab : cs = [] → a = true → b = true) : Reads d a b cs (cs.map .char) := by
  induction cs generalizing a with
  | nil => exact .nil (hab rfl)
  | cons c cs ih =>
      have hc := reads_char (d := d) (a := a) (b := false) (h c List.mem_cons_self)
      refine hc.append (ih (fun x hx => h x (List.mem_cons_of_mem _ hx)) fun _ hf => ?_)
      cases hf

/-- Plain text leaves all brackets as they were. -/
theorem level_chars {cs : List Char} (h : ∀ c ∈ cs, isPlain c) : Level (cs.map .char) := by
  induction cs with
  | nil => exact level_nil
  | cons c cs ih =>
      intro σ
      have hc := (Bool.and_eq_true_iff.mp (h c List.mem_cons_self)).2
      have hb := bracket_of_not_isBracket (Bool.not_eq_true' _ ▸ hc) σ
      rw [List.map_cons, nest, Token.nest, hb]
      exact ih (fun x hx => h x (List.mem_cons_of_mem _ hx)) σ

/-- A character of a name is plain. -/
theorem isPlain_of_isTagChar {c : Char} (h : isTagChar c) : isPlain c :=
  isPlain_of_class (by decide +kernel) h

/-! ## Strings, bodies and parameters -/

private theorem string?_other {c : Char} {cs : List Char} (hq : c ≠ '\'')
    (hb : ¬ (c = '\\' ∧ d = .backslash)) :
    string? d (c :: cs) = (string? d cs).map fun r => (c :: r.1, r.2) := by
  cases cs with
  | nil => simp [string?, hq]
  | cons c' cs => rw [string?, if_neg hq, if_neg hb]

/-- An escaped text is part of the string, whatever comes after it. -/
theorem string?_escape_append (cs rest : List Char) :
    string? d (cs.flatMap d.escapeChar ++ rest) =
      (string? d rest).map fun r => (cs.flatMap d.escapeChar ++ r.1, r.2) := by
  induction cs with
  | nil => cases h : string? d rest <;> simp [h]
  | cons c cs ih =>
      rw [List.flatMap_cons, Dialect.escapeChar]
      -- A character is written as a pair that the reader takes together, or as itself.
      by_cases hq : c = '\''
      · rw [if_pos hq]
        show string? d ('\'' :: '\'' :: (cs.flatMap d.escapeChar ++ rest)) = _
        rw [string?, if_pos rfl, if_pos rfl, ih]
        cases string? d rest <;> rfl
      · rw [if_neg hq]
        by_cases hb : c = '\\' ∧ d = .backslash
        · rw [if_pos hb]
          show string? d ('\\' :: '\\' :: (cs.flatMap d.escapeChar ++ rest)) = _
          rw [string?, if_neg (by decide), if_pos ⟨rfl, hb.2⟩, ih]
          cases string? d rest <;> rfl
        · rw [if_neg hb]
          show string? d (c :: (cs.flatMap d.escapeChar ++ rest)) = _
          rw [string?_other hq hb, ih]
          cases string? d rest <;> rfl

/-- A quote closes a string, unless another quote follows. -/
theorem string?_quote {rest : List Char} (hr : rest.head? ≠ some '\'') :
    string? d ('\'' :: rest) = some ([], rest) := by
  cases rest with
  | nil => rfl
  | cons c rest =>
      have hc : c ≠ '\'' := fun h => hr (congrArg some h)
      rw [string?, if_pos rfl, if_neg hc]

/-- An escaped text is read up to the quote after it, unless another quote follows that one. -/
theorem string?_escape (cs : List Char) {rest : List Char} (hr : rest.head? ≠ some '\'') :
    string? d (cs.flatMap d.escapeChar ++ '\'' :: rest) = some (cs.flatMap d.escapeChar, rest) := by
  rw [string?_escape_append, string?_quote hr, Option.map_some, List.append_nil]

/-- A string literal is read as one string, and is soft. -/
theorem reads_quoteChars (cs : List Char) :
    Reads d false true (d.quoteChars cs) [.string (cs.flatMap d.escapeChar)] := by
  have hstring : ∀ rest, Fits d true rest →
      string? d (cs.flatMap d.escapeChar ++ '\'' :: rest) =
        some (cs.flatMap d.escapeChar, rest) := by
    intro rest hr
    refine string?_escape cs fun hq => ?_
    cases (hr hq).2
  cases d with
  | standard =>
      show Reads .standard false true ('\'' :: (cs.flatMap _ ++ ['\''])) _
      refine .token (fun _ => ⟨rfl, rfl⟩) fun rest hr => ?_
      rw [List.append_assoc, List.singleton_append, token?, if_pos rfl, hstring rest hr]
      rfl
  | backslash =>
      show Reads .backslash false true ('E' :: ('\'' :: (cs.flatMap _ ++ ['\'']))) _
      refine .token (fun h => absurd h (by decide)) fun rest hr => ?_
      simp [token?, hstring rest hr]

/-- A whole body is read as one token, in every dialect. -/
theorem reads_body {cs : List Char} {t : Token} (h : wholeBody? cs = some t) :
    Reads d a b cs [t] := by
  obtain ⟨r, tag, content, rfl, rfl, ht⟩ := wholeBody?_eq_some h
  exact .token (fun h => absurd h (by decide)) fun rest _ => token?_body_append ht rest

/-- No digit is a letter. -/
theorem isAlphabetic_of_isDigit {c : Char} (h : c.isDigit) : Text.isAlphabetic c = false := by
  have hbound : ∀ r ∈ Text.alphabeticRanges, 0x41 ≤ r.1 := by decide +kernel
  have hc := (Char.isDigit_iff_toNat.mp h).2
  rw [Bool.eq_false_iff]
  intro hal
  obtain ⟨r, hr, hle, -⟩ := Text.inRanges_iff.mp hal
  have := hbound r hr
  have : '9'.toNat = 0x39 := rfl
  omega

/-- A digit after a dollar sign makes no fence. -/
theorem tag?_digit {c : Char} (h : c.isDigit) (cs : List Char) : tag? (c :: cs) = none := by
  rw [tag?, List.takeWhile_cons_of_pos (isTagChar_of_isDigit h), List.head?_cons,
    Option.all_some, isAlphabetic_of_isDigit h]
  split
  · rfl
  · simp

/-- A numbered parameter is read character by character. -/
theorem part_parameter {ds : List Char} (hne : ds ≠ []) (h : ∀ c ∈ ds, c.isDigit) :
    Part d ('$' :: ds) (('$' :: ds).map .char) := by
  have hplain : ∀ c ∈ ds, isPlain c :=
    fun c hc => isPlain_of_isTagChar (isTagChar_of_isDigit (h c hc))
  constructor
  · obtain ⟨c, cs, rfl⟩ := List.exists_cons_of_ne_nil hne
    intro rest hr
    have hrest := (reads_chars (d := d) (a := false) (b := true)
      (fun x hx => isQuiet_of_isPlain (hplain x hx)) fun h => (List.cons_ne_nil _ _ h).elim) rest hr
    have htoken : token? d '$' (c :: cs ++ rest) = some (.char '$', c :: cs ++ rest) := by
      rw [token?, if_neg (by decide), if_neg (by decide), if_pos rfl, List.cons_append,
        tag?_digit (h c List.mem_cons_self)]
    refine ⟨fits_of_ne (by decide), ?_⟩
    rw [List.cons_append, scan_cons htoken, hrest.2]
    cases scan d rest <;> rfl
  · intro σ
    show nest σ (ds.map .char) = some σ
    exact level_chars hplain σ

end SqlForms.Lexical
