import SqlForms.Name

/-! # Words, and where they end

    Between its spaces, commas and parentheses an expression is written in
    words: integers, plain names and the texts of operators.  A word ends
    where the next of these characters stands, so the text after a word is
    known once the word is; and a row of texts, each with the same text
    before it, up to a closing parenthesis is known part by part.  Integers
    and plain names are written so that different ones are different words. -/

namespace SqlForms.Readability

/-- Whether a character stands between words. -/
def isDelimiter (c : Char) : Bool :=
  c == ' ' || c == ',' || c == '(' || c == ')'

/-- Whether a character may stand right after an operand. -/
def isStop (c : Char) : Bool :=
  c == ' ' || c == ',' || c == ')'

/-- Whether a text is at its end or goes on with a character of the given kind. -/
def Ends (p : Char → Bool) (r : List Char) : Prop :=
  ∀ c ∈ r.head?, p c

@[simp] theorem ends_nil (p : Char → Bool) : Ends p [] :=
  fun _ hc => by simp at hc

@[simp] theorem ends_cons {p : Char → Bool} {c : Char} {r : List Char} :
    Ends p (c :: r) ↔ p c := by
  simp [Ends]

/-- A character that may follow an operand is a delimiter. -/
theorem Ends.delimiter {r : List Char} (h : Ends isStop r) : Ends isDelimiter r := by
  intro c hc
  have := h c hc
  simp only [isStop, isDelimiter, Bool.or_eq_true] at this ⊢
  rcases this with (h | h) | h
  · exact .inl (.inl (.inl h))
  · exact .inl (.inl (.inr h))
  · exact .inr h

/-- A run of characters that are not of a kind ends where the next one of the kind stands. -/
theorem run_append_inj {p : Char → Bool} {w w' r r' : List Char} (hw : ∀ c ∈ w, p c = false)
    (hw' : ∀ c ∈ w', p c = false) (hr : Ends p r) (hr' : Ends p r') (h : w ++ r = w' ++ r') :
    w = w' ∧ r = r' := by
  induction w generalizing w' with
  | nil =>
      cases w' with
      | nil => exact ⟨rfl, h⟩
      | cons c w' =>
          rw [List.nil_append] at h
          rw [h, List.cons_append, ends_cons, hw' c List.mem_cons_self] at hr
          cases hr
  | cons c w ih =>
      cases w' with
      | nil =>
          rw [List.nil_append] at h
          rw [← h, List.cons_append, ends_cons, hw c List.mem_cons_self] at hr'
          cases hr'
      | cons c' w' =>
          obtain ⟨rfl, htail⟩ := List.cons.inj h
          obtain ⟨rfl, hrest⟩ := ih (fun x hx => hw x (List.mem_cons_of_mem _ hx))
            (fun x hx => hw' x (List.mem_cons_of_mem _ hx)) htail
          exact ⟨rfl, hrest⟩

/-- Whether a text can stand before an item of a row: it ends what is before it, and not the
    row. -/
def Leads (lead : List Char) : Prop :=
  ∃ c cs, lead = c :: cs ∧ isStop c ∧ c ≠ ')'

/-- A row of texts, each after the same text, and the parenthesis that closes it. -/
def row {α : Type} (lead : List Char) (t : α → List Char) (xs : List α) (r : List Char) :
    List Char :=
  (xs.flatMap fun x => lead ++ t x) ++ ')' :: r

section Row

variable {α : Type} {t : α → List Char} {lead r r' : List Char}

theorem row_cons (x : α) (xs : List α) :
    row lead t (x :: xs) r = lead ++ (t x ++ row lead t xs r) := by
  simp [row]

/-- What is left of a row may follow an operand. -/
theorem ends_row (hl : Leads lead) (xs : List α) : Ends isStop (row lead t xs r) := by
  obtain ⟨c, cs, rfl, hc, -⟩ := hl
  cases xs with
  | nil => exact ends_cons.mpr rfl
  | cons x xs => exact ends_cons.mpr hc

/-- Where each text of a row is read without doubt, so is the row. -/
theorem row_inj (hl : Leads lead) {xs ys : List α}
    (hread : ∀ x ∈ xs, ∀ y ∈ ys, ∀ r r', Ends isStop r → Ends isStop r' →
      t x ++ r = t y ++ r' → x = y ∧ r = r')
    (h : row lead t xs r = row lead t ys r') : xs = ys ∧ r = r' := by
  have hne : ∀ {cs cs' : List Char}, ')' :: cs ≠ lead ++ cs' := by
    obtain ⟨c, cs, rfl, -, hne⟩ := hl
    intro _ _ he
    exact hne (List.cons.inj he).1.symm
  -- The closing parenthesis is no lead, so both rows end together.
  induction xs generalizing ys with
  | nil =>
      cases ys with
      | nil => exact ⟨rfl, (List.cons.inj h).2⟩
      | cons y ys =>
          rw [row_cons] at h
          exact absurd h hne
  | cons x xs ih =>
      cases ys with
      | nil =>
          rw [row_cons] at h
          exact absurd h.symm hne
      | cons y ys =>
          rw [row_cons, row_cons] at h
          obtain ⟨rfl, hrest⟩ := hread x List.mem_cons_self y List.mem_cons_self _ _
            (ends_row hl xs) (ends_row hl ys) (List.append_cancel_left h)
          obtain ⟨rfl, hr⟩ := ih (fun x hx y hy => hread x (List.mem_cons_of_mem _ hx) y
            (List.mem_cons_of_mem _ hy)) hrest
          exact ⟨rfl, hr⟩

end Row

/-! ## Integers -/

/-- An integer is written as a sign, if it is negative, and digits. -/
theorem toList_toString_int (n : Int) :
    (toString n).toList = (if n < 0 then ['-'] else []) ++ Nat.toDigits 10 n.natAbs := by
  cases n with
  | ofNat n =>
      show (toString n).toList = _
      rw [Nat.toString_eq_ofList_toDigits, String.toList_ofList]
      simp
  | negSucc n =>
      show ("-" ++ toString (n + 1)).toList = _
      rw [String.toList_append, Nat.toString_eq_ofList_toDigits, String.toList_ofList]
      simp [Int.negSucc_lt_zero]

private theorem toDigits_injective {m n : Nat} (h : Nat.toDigits 10 m = Nat.toDigits 10 n) :
    m = n := by
  have := congrArg (Nat.ofDigitChars 10 · 0) h
  simpa only [Nat.ofDigitChars_ten_toDigits] using this

/-- The digits of a number are digits. -/
theorem isDigit_of_mem_toDigits {n : Nat} {c : Char} (h : c ∈ Nat.toDigits 10 n) : c.isDigit :=
  Nat.isDigit_of_mem_toDigits (by decide) (by decide) h

/-- The characters of an integer. -/
theorem of_mem_int {n : Int} {c : Char} (h : c ∈ (toString n).toList) : c = '-' ∨ c.isDigit := by
  rw [toList_toString_int] at h
  rcases List.mem_append.mp h with h | h
  · split at h
    · exact .inl (List.mem_singleton.mp h)
    · cases h
  · exact .inr (isDigit_of_mem_toDigits h)

/-- The text of an integer has a digit. -/
theorem exists_isDigit_int (n : Int) : ∃ c ∈ (toString n).toList, c.isDigit := by
  obtain ⟨c, hc⟩ := List.exists_mem_of_ne_nil _ (Nat.toDigits_ne_nil (b := 10) (n := n.natAbs))
  refine ⟨c, ?_, isDigit_of_mem_toDigits hc⟩
  rw [toList_toString_int]
  exact List.mem_append_right _ hc

/-- Different integers have different texts. -/
theorem int_text_injective {m n : Int} (h : (toString m).toList = (toString n).toList) :
    m = n := by
  have hsign : ∀ {k : Nat} {cs : List Char}, '-' :: cs ≠ Nat.toDigits 10 k := by
    intro k cs hk
    have : '-'.isDigit := isDigit_of_mem_toDigits (hk ▸ List.mem_cons_self)
    exact absurd this (by decide)
  rw [toList_toString_int, toList_toString_int] at h
  by_cases hm : m < 0
  · by_cases hn : n < 0
    · rw [if_pos hm, if_pos hn] at h
      have := toDigits_injective (List.append_cancel_left h)
      omega
    · rw [if_pos hm, if_neg hn] at h
      exact absurd h hsign
  · by_cases hn : n < 0
    · rw [if_neg hm, if_pos hn] at h
      exact absurd h.symm hsign
    · rw [if_neg hm, if_neg hn] at h
      have := toDigits_injective (List.append_cancel_left h)
      omega

/-! ## Plain names -/

/-- Whether a character may stand in a plain name: a small letter, a digit or the underscore. -/
def isNameChar (c : Char) : Bool :=
  decide ('a' ≤ c) && decide (c ≤ 'z') || c.isDigit || c == '_'

/-- Whether a name is plain: such characters, and no digit at the front. -/
def isPlainName : List Char → Bool
  | [] => false
  | c :: cs => !c.isDigit && (c :: cs).all isNameChar

/-- The characters of a plain name are such. -/
theorem isNameChar_of_mem {cs : List Char} (h : isPlainName cs) {c : Char} (hc : c ∈ cs) :
    isNameChar c := by
  cases cs with
  | nil => cases hc
  | cons x xs =>
      simp only [isPlainName, Bool.and_eq_true, List.all_eq_true] at h
      exact h.2 c hc

/-- A digit may stand in a plain name. -/
theorem isNameChar_of_isDigit {c : Char} (h : c.isDigit) : isNameChar c := by
  simp [isNameChar, h]

/-- No delimiter stands in a plain name. -/
theorem not_isDelimiter_of_isNameChar {c : Char} (h : isNameChar c) : isDelimiter c = false := by
  rw [Bool.eq_false_iff]
  intro hd
  simp only [isDelimiter, Bool.or_eq_true, beq_iff_eq] at hd
  rcases hd with ((rfl | rfl) | rfl) | rfl
  all_goals exact absurd h (by decide)

/-- No plain name is written as an integer. -/
theorem int_ne_plainName (n : Int) {cs : List Char} (h : isPlainName cs) :
    (toString n).toList ≠ cs := by
  intro heq
  cases cs with
  | nil => cases h
  | cons c cs =>
      rcases of_mem_int (heq ▸ List.mem_cons_self : c ∈ (toString n).toList) with rfl | hd
      · exact absurd (isNameChar_of_mem h List.mem_cons_self) (by decide)
      · simp [isPlainName, hd] at h

/-- The code points of plain names. -/
theorem toNat_of_isNameChar {c : Char} (h : isNameChar c) :
    (97 ≤ c.toNat ∧ c.toNat ≤ 122) ∨ (48 ≤ c.toNat ∧ c.toNat ≤ 57) ∨ c = '_' := by
  simp only [isNameChar, Bool.or_eq_true, Bool.and_eq_true, decide_eq_true_eq, beq_iff_eq] at h
  rcases h with (h | h) | h
  · exact .inl h
  · exact .inr (.inl (Char.isDigit_iff_toNat.mp h))
  · exact .inr (.inr h)

/-- Lower-casing leaves the characters of plain names. -/
theorem lowerChar_of_isNameChar {c : Char} (h : isNameChar c) : Text.lowerChar c = [c] := by
  have hruns : ∀ r ∈ Text.capitalRuns, r.first = 65 ∧ r.last = 90 ∨ 192 ≤ r.first := by
    have : Text.capitalRuns.all fun r =>
        decide (r.first = 65 ∧ r.last = 90 ∨ 192 ≤ r.first) := by decide
    intro r hr
    exact of_decide_eq_true (List.all_eq_true.mp this r hr)
  have hnone : Text.capitalRuns.find? (·.holds c.toNat) = none := by
    rw [List.find?_eq_none]
    intro r hr hholds
    simp only [Text.CapitalRun.holds, Bool.and_eq_true, decide_eq_true_eq] at hholds
    rcases toNat_of_isNameChar h with hc | hc | rfl
    · rcases hruns r hr with hr | hr <;> omega
    · rcases hruns r hr with hr | hr <;> omega
    · have : ('_' : Char).toNat = 95 := rfl
      rcases hruns r hr with hr | hr <;> omega
  have hdot : c ≠ '\u0130' := by
    rintro rfl
    exact absurd h (by decide)
  rw [Text.lowerChar, if_neg hdot, hnone]

/-- A plain name has no capitals. -/
theorem lowercase_of_isNameChar {cs : List Char} (h : ∀ c ∈ cs, isNameChar c) :
    Text.lowercase cs = cs := by
  have key : ∀ before, Text.lowerAfter before cs = cs := by
    induction cs with
    | nil => exact fun _ => rfl
    | cons c cs ih =>
        intro before
        have hc := h c List.mem_cons_self
        have hsigma : c ≠ '\u03a3' := by
          rintro rfl
          exact absurd hc (by decide)
        rw [Text.lowerAfter, if_neg hsigma, lowerChar_of_isNameChar hc,
          ih fun x hx => h x (List.mem_cons_of_mem _ hx)]
        rfl
  exact key []

/-- A name without dots is one segment. -/
theorem segments_of_not_mem {cs : List Char} (h : '.' ∉ cs) : Name.segments cs = [cs] := by
  induction cs with
  | nil => rfl
  | cons c cs ih =>
      have hc : c ≠ '.' := fun he => h (he ▸ List.mem_cons_self)
      rw [Name.segments, if_neg hc, ih fun hm => h (List.mem_cons_of_mem _ hm)]

/-- A character of a plain name is safe. -/
theorem safeChar_of_isNameChar {c : Char} (h : isNameChar c) : Name.safeChar c = c := by
  have hletters : (97, 122) ∈ Text.alphabeticRanges := by decide
  have hdigits : (48, 57) ∈ Text.numeralRanges := by decide
  rcases toNat_of_isNameChar h with hc | hc | rfl
  · have : Text.isAlphabetic c := Text.inRanges_iff.mpr ⟨_, hletters, hc⟩
    rw [Name.safeChar, if_pos (by simp [this])]
  · have : Text.isNumeral c := Text.inRanges_iff.mpr ⟨_, hdigits, hc⟩
    rw [Name.safeChar, if_pos (by simp [this])]
  · exact ite_self _

/-- Where names are not quoted, a plain name is its own identifier. -/
theorem chars_of_isPlainName {cs : List Char} (h : isPlainName cs) : Name.chars false cs = cs := by
  have hmem : ∀ c ∈ cs, isNameChar c := fun c => isNameChar_of_mem h
  have hnot : ∀ {c : Char}, isNameChar c = false → c ∉ cs := by
    intro c hc hm
    rw [hmem c hm] at hc
    cases hc
  have hstar : cs ≠ ['*'] := fun he => hnot (c := '*') (by decide) (he ▸ List.mem_cons_self)
  have hparameter : ¬ Name.isParameter cs := by
    intro hp
    rw [Name.isParameter.eq_def] at hp
    split at hp
    · exact hnot (c := '$') (by decide) List.mem_cons_self
    · cases hp
  have hsafe : cs.map Name.safeChar = cs := by
    rw [List.map_congr_left fun c hc => safeChar_of_isNameChar (hmem c hc), List.map_id']
  rw [Name.chars, if_neg (not_or.mpr ⟨hstar, hparameter⟩), lowercase_of_isNameChar hmem,
    segments_of_not_mem (hnot (by decide))]
  simp [Name.segmentChars, hstar, hsafe]

end SqlForms.Readability
