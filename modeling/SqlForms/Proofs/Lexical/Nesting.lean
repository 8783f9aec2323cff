import SqlForms.Proofs.Registered
import SqlForms.Proofs.Lexical.Reading

/-! # A check of layouts

    A layout can be checked before its operands are known: its texts must be
    quiet or one whole body, no two operands may touch, and the brackets of
    its texts must match.  `Layout.run` makes that check; it keeps whether a
    quote may follow and which brackets still have to close.

    An operand leaves the brackets as they were and is soft, so a layout that
    leaves the brackets as they were is a part like its operands
    (`Layout.Closes`).  Texts are told apart by their brackets
    (`Layout.hasBrackets`), except for types and bodies, whose texts are not
    fixed. -/

namespace SqlForms

namespace Lexical

/-! ## The check -/

/-- What a fixed text does to the brackets; a text that may open something it does not close is
    refused. -/
def textStep (soft : Bool) (σ cs : List Char) : Option (Bool × List Char) :=
  if cs = [] then some (soft, σ)
  else if cs.all isQuiet then (nest σ (cs.map .char)).map fun τ => (false, τ)
  else (wholeBody? cs).map fun _ => (false, σ)

/-- What a fixed text is read as. -/
def textTokens (cs : List Char) : List Token :=
  if cs.all isQuiet then cs.map .char else (wholeBody? cs).toList

/-- A text that is not refused is read as the check says. -/
theorem reads_text {d : Dialect} {a b : Bool} {σ τ cs : List Char}
    (h : textStep a σ cs = some (b, τ)) :
    Reads d a b cs (textTokens cs) ∧ nest σ (textTokens cs) = some τ := by
  rw [textStep] at h
  rw [textTokens]
  by_cases hne : cs = []
  · rw [if_pos hne] at h
    cases h
    subst hne
    exact ⟨.nil id, rfl⟩
  · rw [if_neg hne] at h
    by_cases hq : cs.all isQuiet
    · rw [if_pos hq] at h ⊢
      obtain ⟨τ', hn, h⟩ := Option.map_eq_some_iff.mp h
      cases h
      exact ⟨reads_chars (List.all_eq_true.mp hq) fun h => absurd h hne, hn⟩
    · rw [if_neg hq] at h ⊢
      obtain ⟨t, ht, h⟩ := Option.map_eq_some_iff.mp h
      cases h
      rw [ht]
      refine ⟨reads_body ht, ?_⟩
      obtain ⟨r, tag, content, -, rfl, -⟩ := wholeBody?_eq_some ht
      rfl

end Lexical

open Lexical

namespace Layout

/-- What a layout does to the brackets, from a softness and the brackets that still have to close.
    It is refused if two operands touch in it, or if it holds a fault. -/
def run (soft : Bool) (σ : List Char) : Layout → Option (Bool × List Char)
  | [] => some (soft, σ)
  | .atom (.text t) :: l => (textStep soft σ t.toList).bind fun s => run s.1 s.2 l
  | .atom (.name _) :: l => if soft then none else run true σ l
  | .part _ :: l => if soft then none else run true σ l
  | .atom _ :: _ => none

/-- Whether a layout closes what it opens, whatever stands around it. -/
def Closes (l : Layout) : Prop :=
  ∀ σ, ∃ b, run false σ l = some (b, σ)

/-- Whether a layout closes what it opens, also right after an operand. -/
def Follows (l : Layout) : Prop :=
  ∀ a σ, ∃ b, run a σ l = some (b, σ)

variable {a : Bool} {σ : List Char}

@[simp] theorem run_nil : run a σ [] = some (a, σ) := rfl

/-- A tree stands where nothing soft is before it, and is soft itself. -/
@[simp] theorem run_part (e : Expr) (l : Layout) : run false σ (.part e :: l) = run true σ l := rfl

@[simp] private theorem run_name (n : String) (l : Layout) :
    run false σ (.atom (.name n) :: l) = run true σ l := rfl

/-- Layouts one after the other are checked one after the other. -/
@[simp] theorem run_append (l l' : Layout) :
    run a σ (l ++ l') = (run a σ l).bind fun s => run s.1 s.2 l' := by
  induction l generalizing a σ with
  | nil => rfl
  | cons p l ih =>
      cases p with
      | part e =>
          cases a with
          | true => rfl
          | false => exact ih
      | atom x =>
          cases x with
          | text t =>
              rw [List.cons_append, run, run]
              cases textStep a σ t.toList with
              | none => rfl
              | some s => exact ih
          | name n =>
              cases a with
              | true => rfl
              | false => exact ih
          | _ => rfl

/-! ## What the check promises -/

section
variable {d : Dialect} {l l' : Layout} {cs cs' : List Char} {ts ts' : List Token}

/-- Whether the characters of a layout are read as the tokens, in so far as the check passes. -/
def Reading (d : Dialect) (l : Layout) (cs : List Char) (ts : List Token) : Prop :=
  ∀ a σ b τ, run a σ l = some (b, τ) → Reads d a b cs ts ∧ nest σ ts = some τ

/-- No pieces are read as no tokens. -/
theorem reading_nil : Reading d [] [] [] := by
  intro a σ b τ h
  cases h
  exact ⟨.nil id, rfl⟩

/-- A fixed text is read as its tokens. -/
theorem reading_text (t : String) : Reading d [.text t] t.toList (textTokens t.toList) := by
  intro a σ b τ h
  rw [run, Option.bind_eq_some_iff] at h
  obtain ⟨s, hs, h⟩ := h
  cases h
  exact reads_text hs

/-- A part is read as its tokens where a tree stands. -/
theorem reading_part {e : Expr} (h : Part d cs ts) : Reading d [.part e] cs ts := by
  intro a σ b τ hr
  cases a with
  | true => cases hr
  | false =>
      cases hr
      exact ⟨h.reads, h.level σ⟩

/-- So it is where a name stands. -/
theorem reading_name {n : String} (h : Part d cs ts) : Reading d [.atom (.name n)] cs ts := by
  intro a σ b τ hr
  cases a with
  | true => cases hr
  | false =>
      cases hr
      exact ⟨h.reads, h.level σ⟩

/-- Layouts one after the other are read one after the other. -/
theorem Reading.append (h : Reading d l cs ts) (h' : Reading d l' cs' ts') :
    Reading d (l ++ l') (cs ++ cs') (ts ++ ts') := by
  intro a σ b τ hr
  rw [run_append, Option.bind_eq_some_iff] at hr
  obtain ⟨⟨m, ρ⟩, hfirst, hrest⟩ := hr
  obtain ⟨hreads, hnest⟩ := h a σ m ρ hfirst
  obtain ⟨hreads', hnest'⟩ := h' m ρ b τ hrest
  refine ⟨hreads.append hreads', ?_⟩
  rw [nest_append, hnest]
  exact hnest'

/-- A layout that closes what it opens is a part like its operands. -/
theorem Closes.part (hl : Closes l) (h : Reading d l cs ts) : Part d cs ts := by
  constructor
  · obtain ⟨b, hb⟩ := hl []
    exact (h false [] b [] hb).1.weaken id fun _ => rfl
  · intro σ
    obtain ⟨b, hb⟩ := hl σ
    exact (h false σ b σ hb).2

/-- A layout that passes the check holds texts and names only, besides its operands. -/
theorem atom_of_run {s : Bool × List Char} (h : run a σ l = some s) {x : Atom}
    (hx : .atom x ∈ l) : (∃ t, x = .text t) ∨ ∃ n, x = .name n := by
  obtain ⟨before, after, rfl⟩ := List.append_of_mem hx
  rw [run_append, Option.bind_eq_some_iff] at h
  obtain ⟨s', -, h⟩ := h
  cases x with
  | text t => exact .inl ⟨t, rfl⟩
  | name n => exact .inr ⟨n, rfl⟩
  | _ => cases h

end

/-! ## Texts -/

/-- Quiet text that leaves all brackets as they were. -/
def Balanced (cs : List Char) : Prop :=
  (∀ c ∈ cs, isQuiet c) ∧ Level (cs.map .char)

/-- Text without brackets is balanced. -/
theorem balanced_of_plain {cs : List Char} (h : ∀ c ∈ cs, isPlain c) : Balanced cs :=
  ⟨fun c hc => isQuiet_of_isPlain (h c hc), level_chars h⟩

/-- Balanced texts one after the other are balanced. -/
theorem Balanced.append {cs cs' : List Char} (h : Balanced cs) (h' : Balanced cs') :
    Balanced (cs ++ cs') := by
  refine ⟨fun c hc => ?_, ?_⟩
  · rcases List.mem_append.mp hc with hc | hc
    · exact h.1 c hc
    · exact h'.1 c hc
  · rw [List.map_append]
    exact h.2.append h'.2

/-- Balanced text in parentheses is balanced. -/
theorem Balanced.enclosed {cs : List Char} (h : Balanced cs) : Balanced ('(' :: cs ++ [')']) := by
  refine ⟨fun c hc => ?_, fun σ => ?_⟩
  · rcases List.mem_append.mp hc with hc | hc
    · rcases List.mem_cons.mp hc with rfl | hc
      · decide
      · exact h.1 c hc
    · rw [List.mem_singleton.mp hc]
      decide
  · rw [List.map_append, nest_append]
    show (nest (')' :: σ) (cs.map .char)).bind _ = some σ
    rw [h.2]
    rfl

/-- Balanced texts with a balanced separator between are balanced. -/
theorem Balanced.intercalate {sep : List Char} {css : List (List Char)} (hsep : Balanced sep)
    (h : ∀ cs ∈ css, Balanced cs) : Balanced (sep.intercalate css) := by
  induction css with
  | nil => exact balanced_of_plain fun c hc => (List.not_mem_nil hc).elim
  | cons cs css ih =>
      have hcs := h cs List.mem_cons_self
      have ih := ih fun x hx => h x (List.mem_cons_of_mem _ hx)
      cases css with
      | nil => simpa [List.intercalate] using hcs
      | cons y ys => simpa [List.intercalate, List.intersperse] using hcs.append (hsep.append ih)

/-- Text that leaves the brackets as they were is passed over. -/
theorem run_balanced {t : String} (h : Balanced t.toList) (l : Layout) :
    run false σ (.text t :: l) = run false σ l := by
  rw [run, textStep]
  by_cases hne : t.toList = []
  · rw [if_pos hne]
    rfl
  · rw [if_neg hne, if_pos (List.all_eq_true.mpr h.1), h.2]
    rfl

/-- Such text may follow anything, if there is any of it. -/
theorem run_balanced_of_ne {t : String} (h : Balanced t.toList) (hne : t.toList ≠ [])
    (l : Layout) : run a σ (.text t :: l) = run false σ l := by
  rw [run, textStep, if_neg hne, if_pos (List.all_eq_true.mpr h.1), h.2]
  rfl

/-- Whether a text is quiet, and not empty, and has these brackets. -/
def hasBrackets (t : String) (brackets : List Char) : Bool :=
  !t.toList.isEmpty && t.toList.all isQuiet && t.toList.filter isBracket == brackets

/-- Only the brackets of a text count. -/
theorem nest_filter (σ cs : List Char) :
    nest σ (cs.map .char) = nest σ ((cs.filter isBracket).map .char) := by
  induction cs generalizing σ with
  | nil => rfl
  | cons c cs ih =>
      by_cases hc : isBracket c
      · rw [List.filter_cons_of_pos hc, List.map_cons, List.map_cons, nest, nest]
        cases Token.nest σ (.char c) with
        | none => rfl
        | some τ => exact ih τ
      · have hb := bracket_of_not_isBracket (Bool.not_eq_true _ ▸ hc) σ
        rw [List.filter_cons_of_neg hc, List.map_cons, nest, Token.nest, hb]
        exact ih σ

/-- A quiet text does what its brackets do. -/
theorem run_brackets {t : String} {brackets : List Char} (h : hasBrackets t brackets)
    (l : Layout) :
    run a σ (.text t :: l) =
      (nest σ (brackets.map .char)).bind fun τ => run false τ l := by
  simp only [hasBrackets, Bool.and_eq_true, Bool.not_eq_true', beq_iff_eq] at h
  obtain ⟨⟨hne, hq⟩, hb⟩ := h
  have hne : t.toList ≠ [] := by simpa using hne
  rw [run, textStep, if_neg hne, if_pos hq, nest_filter, hb]
  cases nest σ (brackets.map .char) <;> rfl

/-- Text without brackets is passed over. -/
@[simp] theorem run_plain {t : String} (h : hasBrackets t []) (l : Layout) :
    run a σ (.text t :: l) = run false σ l :=
  run_brackets h l

/-- A text that opens one bracket leaves it to be closed. -/
@[simp] theorem run_open {t : String} (h : hasBrackets t ['(']) (l : Layout) :
    run a σ (.text t :: l) = run false (')' :: σ) l :=
  run_brackets h l

/-- A text that closes one bracket closes the last that is open. -/
@[simp] theorem run_close {t : String} (h : hasBrackets t [')']) (l : Layout) :
    run a (')' :: σ) (.text t :: l) = run false σ l :=
  run_brackets h l

@[simp] private theorem run_reopen {t : String} (h : hasBrackets t [')', '(']) (l : Layout) :
    run a (')' :: σ) (.text t :: l) = run false (')' :: σ) l :=
  run_brackets h l

/-! ## Layouts -/

/-- Trees in a row leave the brackets as they were, and are soft if there are any. -/
@[simp] theorem run_joined {separator : String} (h : hasBrackets separator []) (es : List Expr) :
    run false σ (joined separator es) = some (!es.isEmpty, σ) := by
  fun_induction joined separator es with
  | case1 => rfl
  | case2 e => rfl
  | case3 e es hne ih =>
      rw [run_part, run_plain h, ih]
      cases es with
      | nil => exact absurd rfl hne
      | cons x xs => rfl

@[simp] private theorem run_leading {lead : String} (h : hasBrackets lead []) (o : Option Expr) :
    run a σ (leading lead o) = some (o.isSome || a, σ) := by
  cases o with
  | none => rfl
  | some e => rw [leading, run_plain h]; rfl

@[simp] private theorem run_leadingAll {lead : String} (h : hasBrackets lead [])
    (o : Option (List Expr)) :
    run a σ (leadingAll lead o) = some ((o.map fun es => !es.isEmpty).getD a, σ) := by
  cases o with
  | none => rfl
  | some es => rw [leadingAll, run_plain h, run_joined (by decide)]; rfl

@[simp] private theorem run_concat_nil : run a σ (concat []) = some (a, σ) := rfl

@[simp] theorem run_concat_cons (l : Layout) (ls : List Layout) :
    run a σ (concat (l :: ls)) = (run a σ l).bind fun s => run s.1 s.2 (concat ls) :=
  run_append l (concat ls)

theorem follows_nil : Follows [] :=
  fun a _ => ⟨a, rfl⟩

/-- Layouts that may come right after an operand may do so in a row. -/
theorem Follows.append {l l' : Layout} (h : Follows l) (h' : Follows l') : Follows (l ++ l') := by
  intro a σ
  obtain ⟨b, hb⟩ := h a σ
  rw [run_append, hb]
  exact h' b σ

/-- So may any number of them. -/
theorem follows_concat {ls : List Layout} (h : ∀ l ∈ ls, Follows l) : Follows (concat ls) := by
  induction ls with
  | nil => exact follows_nil
  | cons l ls ih =>
      have hrest := ih fun x hx => h x (List.mem_cons_of_mem _ hx)
      exact (h l List.mem_cons_self).append hrest

/-- Layouts that close what they open do so divided by a text. -/
theorem closes_separated {separator : String} (h : hasBrackets separator []) {ls : List Layout}
    (hls : ∀ l ∈ ls, Closes l) : Closes (separated separator ls) := by
  intro σ
  fun_induction separated separator ls with
  | case1 => exact ⟨false, rfl⟩
  | case2 l => exact hls l List.mem_cons_self σ
  | case3 l ls hne ih =>
      obtain ⟨b, hb⟩ := hls l List.mem_cons_self σ
      obtain ⟨b', hb'⟩ := ih fun x hx => hls x (List.mem_cons_of_mem _ hx)
      refine ⟨b', ?_⟩
      rw [run_append, hb, Option.bind_some, run_plain h, hb']

/-- Trees in parentheses close what they open. -/
theorem closes_parenthesized (es : List Expr) : Closes (parenthesized es) := by
  intro σ
  cases es with
  | nil => exact ⟨false, by simp (disch := decide) [parenthesized]⟩
  | cons e es => exact ⟨false, by simp (disch := decide) [parenthesized]⟩

end Layout

/-! ## Texts that are not fixed -/

/-- Capitals and blanks are plain. -/
theorem Registry.hasBrackets_of_isWords {s : String} (h : isWords s) :
    Layout.hasBrackets s [] := by
  rw [isWords, Bool.and_eq_true] at h
  have hplain : ∀ c ∈ s.toList, isPlain c := fun c hc =>
    isPlain_of_class (p := fun c => c.isUpper || c == ' ') (by decide)
      (List.all_eq_true.mp h.2 c hc)
  have hb : s.toList.filter isBracket = [] := by
    refine List.filter_eq_nil_iff.mpr fun c hc => ?_
    have := (Bool.and_eq_true_iff.mp (hplain c hc)).2
    simpa using this
  have hq : s.toList.all isQuiet :=
    List.all_eq_true.mpr fun c hc => isQuiet_of_isPlain (hplain c hc)
  rw [Layout.hasBrackets, h.1, hq, hb]
  rfl

/-- A body between its delimiters may follow anything. -/
theorem Layout.run_quote (body : String) {a : Bool} {σ : List Char} (l : Layout) :
    run a σ (.text (Function.quote body) :: l) = run false σ l := by
  obtain ⟨k, hb⟩ := wholeBody?_quote body.toList
  rw [← String.toList_ofList (l := _ ++ _ ++ _)] at hb
  obtain ⟨r, tag, content, hcs, -, -⟩ := wholeBody?_eq_some hb
  have hnot : ¬ (Function.quote body).toList.all isQuiet := by
    rw [Function.quote, hcs]
    intro h
    cases h
  rw [run, textStep, if_neg (by rw [Function.quote, hcs]; simp), if_neg hnot, Function.quote, hb]
  rfl

namespace TypeName

open Layout (Balanced balanced_of_plain)

private theorem isPlain_writeChar {c : Char} (h : isNameChar c) : isPlain (writeChar c) :=
  forall_nameChar (p := fun c => isPlain (writeChar c)) (by decide) h

private theorem balanced_digits (n : Nat) : Balanced (toString n).toList := by
  refine balanced_of_plain fun c hc => ?_
  rw [Nat.toString_eq_ofList_toDigits, String.toList_ofList] at hc
  have hd := Nat.isDigit_of_mem_toDigits (by decide) (by decide) hc
  exact isPlain_of_isTagChar (isTagChar_of_isDigit hd)

/-- The parameters of a type are balanced. -/
theorem balanced_writeParameters (ns : List Nat) : Balanced (writeParameters ns).toList := by
  cases ns with
  | nil => exact balanced_of_plain fun c hc => (List.not_mem_nil hc).elim
  | cons n ns =>
      have hitems : Balanced (", ".intercalate ((n :: ns).map toString)).toList := by
        rw [String.toList_intercalate]
        refine .intercalate (balanced_of_plain (List.all_eq_true.mp (by decide))) fun cs hcs => ?_
        obtain ⟨t, ht, rfl⟩ := List.mem_map.mp hcs
        obtain ⟨m, -, rfl⟩ := List.mem_map.mp ht
        exact balanced_digits m
      have := hitems.enclosed
      simpa [writeParameters] using this

/-- The text of a type is not empty and closes what it opens. -/
theorem balanced_ofExpr {e : Expr} {s : String} (h : ofExpr e = .ok s) :
    s.toList ≠ [] ∧ Balanced s.toList := by
  -- All trees that are types are written as a name with parameters.
  have write : ∀ name ns, write name ns = .ok s → s.toList ≠ [] ∧ Balanced s.toList := by
    intro name ns h
    rw [TypeName.write.eq_def] at h
    split at h
    · cases h
    next hname =>
      split at h
      · split at h
        · cases h
          exact ⟨by decide, balanced_of_plain (List.all_eq_true.mp (by decide))⟩
        next n =>
          cases h
          have hchar : Balanced ['C', 'H', 'A', 'R'] :=
            balanced_of_plain (List.all_eq_true.mp (by decide))
          have := hchar.append (balanced_digits n).enclosed
          refine ⟨by simp, ?_⟩
          simpa using this
        · cases h
      · cases h
        simp only [isName, not_not, Bool.and_eq_true, Bool.not_eq_true'] at hname
        obtain ⟨hne, hchars⟩ := hname
        rw [String.toList_append, String.toList_ofList]
        refine ⟨?_, .append (balanced_of_plain ?_) (balanced_writeParameters ns)⟩
        · simpa using fun h => absurd h (by simpa using hne)
        · rw [List.forall_mem_map]
          exact fun c hc => isPlain_writeChar (List.all_eq_true.mp hchars c hc)
  cases e with
  | identifier name => exact write name [] h
  | keyword name => exact write name [] h
  | operation tag es =>
      obtain ⟨ns, -, h⟩ := bind_eq_ok.mp h
      exact write tag ns h
  | _ => cases h

end TypeName

/-- The text of a type may follow anything. -/
theorem Layout.run_type {e : Expr} {t : String} (h : TypeName.ofExpr e = .ok t) {a : Bool}
    {σ : List Char} (l : Layout) :
    run a σ (.ofExcept (TypeName.ofExpr e) :: l) = run false σ l := by
  rw [h]
  obtain ⟨hne, hb⟩ := TypeName.balanced_ofExpr h
  exact run_balanced_of_ne hb hne l

end SqlForms
