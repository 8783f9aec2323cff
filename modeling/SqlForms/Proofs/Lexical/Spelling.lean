import SqlForms.Proofs.Lexical.Reading

/-! # How names and values are read

    Whatever a name is made of, it is read as plain characters and quoted
    names of plain characters; whatever a value holds, each text in it is
    read as one string.  So neither can leave its place: both are read as
    tokens that are known beforehand, and close what they open. -/

namespace SqlForms

namespace Lexical

variable {d : Dialect}

/-! ## Names -/

/-- What a segment of a name is read as. -/
def segmentTokens (quote : Bool) (s : List Char) : List Token :=
  if s = ['*'] then [.char '*']
  else if quote then [.name (s.map Name.safeChar)]
  else (s.map Name.safeChar).map .char

/-- What a name is read as. -/
def nameTokens (quote : Bool) (cs : List Char) : List Token :=
  if cs = ['*'] ∨ Name.isParameter cs then cs.map .char
  else
    [Token.char '.'].intercalate ((Name.segments (Text.lowercase cs)).map (segmentTokens quote))

/-- A character of a name is plain once it is made safe. -/
theorem isPlain_safeChar (c : Char) : isPlain (Name.safeChar c) := by
  refine isPlain_of_isTagChar ?_
  rw [Name.safeChar]
  split
  next h => simp [isTagChar, h]
  next => simp [isTagChar]

private theorem isPlain_of_isDigit {c : Char} (h : c.isDigit) : isPlain c :=
  isPlain_of_isTagChar (isTagChar_of_isDigit h)

/-- A quoted name without a quote ends at the next quote. -/
theorem name?_of_not_mem {content : List Char} (h : '"' ∉ content) (rest : List Char) :
    name? (content ++ '"' :: rest) = some (content, rest) := by
  induction content with
  | nil => rfl
  | cons c cs ih =>
      have hc : c ≠ '"' := fun he => h (he ▸ List.mem_cons_self)
      rw [List.cons_append, name?, if_neg hc, ih fun hm => h (List.mem_cons_of_mem _ hm)]
      rfl

/-- A segment of a name is a part, quoted or not. -/
theorem part_segment (quote : Bool) (s : List Char) :
    Part d (Name.segmentChars quote s) (segmentTokens quote s) := by
  have hplain : ∀ c ∈ s.map Name.safeChar, isPlain c := by
    intro c hc
    obtain ⟨x, -, rfl⟩ := List.mem_map.mp hc
    exact isPlain_safeChar x
  rw [Name.segmentChars, segmentTokens]
  by_cases hstar : s = ['*']
  · rw [if_pos hstar, if_pos hstar, hstar]
    exact ⟨reads_char (by decide), fun _ => rfl⟩
  · rw [if_neg hstar, if_neg hstar]
    cases quote with
    | false =>
        refine ⟨reads_chars (fun c hc => isQuiet_of_isPlain (hplain c hc)) ?_, level_chars hplain⟩
        exact fun _ h => (Bool.false_ne_true h).elim
    | true =>
        refine ⟨.token (fun h => absurd h (by decide)) fun rest _ => ?_, fun _ => rfl⟩
        have hq : '"' ∉ s.map Name.safeChar := fun hm => absurd (hplain _ hm) (by decide)
        have := name?_of_not_mem hq rest
        simp [token?, this]

/-- A name is read as tokens of its own. -/
theorem part_name (quote : Bool) (cs : List Char) :
    Part d (Name.chars quote cs) (nameTokens quote cs) := by
  rw [Name.chars, nameTokens]
  by_cases h : cs = ['*'] ∨ Name.isParameter cs
  · rw [if_pos h, if_pos h]
    rcases h with rfl | h
    · exact ⟨reads_char (by decide), fun _ => rfl⟩
    · rw [Name.isParameter.eq_def] at h
      split at h
      next c ds =>
        refine part_parameter (List.cons_ne_nil c ds) fun x hx => ?_
        have hx := List.all_eq_true.mp h x hx
        simp only [Bool.and_eq_true, decide_eq_true_eq] at hx
        exact Char.isDigit_iff_toNat.mpr hx
      next => cases h
  · rw [if_neg h, if_neg h]
    refine ⟨.intercalate (reads_char (by decide)) fun s _ => (part_segment quote s).reads, ?_⟩
    exact .intercalate (fun _ => rfl) fun s _ => (part_segment (d := d) quote s).level

/-! ## Numbers -/

private theorem isPlain_of_mem_toDigits {n : Nat} {c : Char} (h : c ∈ Nat.toDigits 10 n) :
    isPlain c :=
  isPlain_of_isDigit (Nat.isDigit_of_mem_toDigits (by decide) (by decide) h)

/-- An integer is plain text. -/
theorem isPlain_of_mem_int {n : Int} {c : Char} (h : c ∈ (toString n).toList) : isPlain c := by
  cases n with
  | ofNat n =>
      have h : c ∈ (toString n).toList := h
      rw [Nat.toString_eq_ofList_toDigits, String.toList_ofList] at h
      exact isPlain_of_mem_toDigits h
  | negSucc n =>
      have h : c ∈ ("-" ++ toString (n + 1)).toList := h
      rw [String.toList_append] at h
      rcases List.mem_append.mp h with h | h
      · rw [show c = '-' by simpa using h]
        decide
      · rw [Nat.toString_eq_ofList_toDigits, String.toList_ofList] at h
        exact isPlain_of_mem_toDigits h

/-- A decimal is plain text. -/
theorem isPlain_of_mem_positional {x : Decimal} {c : Char} (h : c ∈ x.positional) :
    isPlain c := by
  have zero : ∀ {n}, c ∈ List.replicate n '0' → isPlain c := by
    intro n hc
    rw [List.eq_of_mem_replicate hc]
    decide
  simp only [Decimal.positional] at h
  split at h
  · rcases List.mem_append.mp h with h | h
    · exact isPlain_of_mem_toDigits h
    · exact zero h
  · split at h
    · rcases List.mem_append.mp h with h | h
      · exact isPlain_of_mem_toDigits (List.mem_of_mem_take h)
      · rcases List.mem_cons.mp h with rfl | h
        · decide
        · exact isPlain_of_mem_toDigits (List.mem_of_mem_drop h)
    · rcases List.mem_cons.mp h with rfl | h
      · decide
      · rcases List.mem_cons.mp h with rfl | h
        · decide
        · rcases List.mem_append.mp h with h | h
          · exact zero h
          · exact isPlain_of_mem_toDigits h

/-- A finite double is plain text. -/
theorem isPlain_of_mem_float {x : Binary64} (hx : x.isFinite) {c : Char}
    (h : c ∈ (NumberStyle.plain.write x).toList) : isPlain c := by
  have hnan : x.isNaN = false := by simp [Binary64.isNaN, hx]
  rw [NumberStyle.write, if_neg (by simp [hnan]), String.toList_ofList] at h
  simp only [hx, if_true] at h
  rcases List.mem_append.mp h with h | h
  · split at h
    · rw [List.mem_singleton.mp h]
      decide
    · cases h
  · have hm : NumberStyle.plain.magnitude (x.shortest NumberStyle.plain.tie) =
        (x.shortest NumberStyle.plain.tie).positional := by
      simp [NumberStyle.magnitude, NumberStyle.isPositional, NumberStyle.plain]
    rw [hm] at h
    exact isPlain_of_mem_positional h

/-- A decimal number has digits, signs and points only. -/
theorem mem_of_isDecimalNumber {s : String} (hs : isDecimalNumber s) {c : Char}
    (h : c ∈ s.toList) : c = '-' ∨ c = '+' ∨ c = '.' ∨ Decimal.isDigit c := by
  -- Digits with at most one point, and then the sign that may stand before them.
  have unsigned : ∀ cs : List Char,
      (cs.dropWhile Decimal.isDigit = [] ∨
        ∃ places, cs.dropWhile Decimal.isDigit = '.' :: places ∧ places.all Decimal.isDigit) →
      c ∈ cs → c = '.' ∨ Decimal.isDigit c := by
    intro cs hcs hc
    rw [← List.takeWhile_append_dropWhile (p := Decimal.isDigit) (l := cs)] at hc
    rcases List.mem_append.mp hc with hc | hc
    · exact .inr (List.all_eq_true.mp List.all_takeWhile c hc)
    · rcases hcs with hd | ⟨places, hd, hp⟩
      · rw [hd] at hc
        cases hc
      · rw [hd] at hc
        rcases List.mem_cons.mp hc with rfl | hc
        · exact .inl rfl
        · exact .inr (List.all_eq_true.mp hp c hc)
  have signed : ∀ cs : List Char, (c ∈ cs → c = '.' ∨ Decimal.isDigit c) →
      (s.toList = cs ∨ s.toList = '-' :: cs ∨ s.toList = '+' :: cs) →
      c = '-' ∨ c = '+' ∨ c = '.' ∨ Decimal.isDigit c := by
    intro cs hcs hsign
    rcases hsign with hl | hl | hl
    · exact .inr (.inr (hcs (hl ▸ h)))
    · rcases List.mem_cons.mp (hl ▸ h) with hc | hc
      · exact .inl hc
      · exact .inr (.inr (hcs hc))
    · rcases List.mem_cons.mp (hl ▸ h) with hc | hc
      · exact .inr (.inl hc)
      · exact .inr (.inr (hcs hc))
  rw [isDecimalNumber] at hs
  split at hs
  next hd => exact signed _ (unsigned _ (.inl hd)) (by split <;> simp_all)
  next places hd =>
    rw [Bool.and_eq_true] at hs
    exact signed _ (unsigned _ (.inr ⟨places, hd, hs.1⟩)) (by split <;> simp_all)
  next => cases hs

/-- A decimal number that was given as a text is plain text. -/
theorem isPlain_of_mem_decimal {s : String} (hs : isDecimalNumber s) {c : Char}
    (h : c ∈ s.toList) : isPlain c := by
  rcases mem_of_isDecimalNumber hs h with rfl | rfl | rfl | hc
  · decide
  · decide
  · decide
  · simp only [Decimal.isDigit, Bool.and_eq_true, decide_eq_true_eq] at hc
    exact isPlain_of_isDigit (Char.isDigit_iff_toNat.mpr hc)

end Lexical

/-! ## Values -/

open Lexical

variable {d : Dialect}

/-- What a literal is read as. -/
def Literal.tokens (d : Dialect) (l : Literal) : List Token :=
  match l.embedding with
  | .verbatim => l.text.toList.map .char
  | .string => [.string (l.text.toList.flatMap d.escapeChar)]
  | .typed type =>
      .string (l.text.toList.flatMap d.escapeChar) :: ("::" ++ type).toList.map .char

theorem Literal.sql_verbatim (text : String) : Literal.sql d ⟨text, .verbatim⟩ = text := rfl

/-- Whether the text of a literal that stands without quotes is plain. -/
def Literal.isPlain (l : Literal) : Bool :=
  match l.embedding with
  | .verbatim => l.text.toList.all Lexical.isPlain
  | .string => true
  | .typed type => type.toList.all Lexical.isPlain

/-- A literal whose text is plain where it stands without quotes is read as tokens of its own. -/
theorem Literal.part {l : Literal} (h : l.isPlain) :
    Part d (l.sql d).toList (l.tokens d) := by
  obtain ⟨text, embedding⟩ := l
  cases embedding with
  | verbatim =>
      have hplain : ∀ c ∈ text.toList, Lexical.isPlain c := List.all_eq_true.mp h
      refine ⟨reads_chars (fun c hc => isQuiet_of_isPlain (hplain c hc)) ?_, level_chars hplain⟩
      exact fun _ h => (Bool.false_ne_true h).elim
  | string =>
      refine ⟨?_, fun _ => rfl⟩
      show Reads d false true (String.ofList (d.quoteChars text.toList)).toList _
      rw [String.toList_ofList]
      exact reads_quoteChars text.toList
  | typed type =>
      have hplain : ∀ c ∈ ("::" ++ type).toList, Lexical.isPlain c := by
        intro c hc
        rw [String.toList_append] at hc
        rcases List.mem_append.mp hc with hc | hc
        · have colons : "::".toList.all Lexical.isPlain := by decide
          exact List.all_eq_true.mp colons c hc
        · exact List.all_eq_true.mp h c hc
      have hcast := reads_chars (d := d) (a := true) (b := true)
        (fun c hc => isQuiet_of_isPlain (hplain c hc)) fun _ h => h
      refine ⟨?_, fun σ => level_chars hplain σ⟩
      have := (reads_quoteChars text.toList).append hcast
      simpa [Literal.sql, Literal.tokens, Dialect.quote, String.append_assoc] using this

namespace Value

mutual

/-- Whether a value holds no text that goes into a statement as it is. -/
def rawFree : Value → Bool
  | .raw _ => false
  | .array items => rawFreeAll items
  | _ => true

/-- Whether values hold no text that goes into a statement as it is. -/
def rawFreeAll : List Value → Bool
  | [] => true
  | v :: vs => rawFree v && rawFreeAll vs

end

/-- What a value is read as that is written as one literal. -/
def scalarTokens (d : Dialect) (v : Value) : List Token :=
  match v.literal d with
  | .ok l => l.tokens d
  | .error _ => []

/-- What items divided by commas are read as in the brackets of an array. -/
def arrayTokens (items : List (List Token)) : List Token :=
  ['A', 'R', 'R', 'A', 'Y', '['].map .char ++ ([',', ' '].map Token.char).intercalate items ++
    [.char ']']

mutual

/-- What a value is read as. -/
def tokens (d : Dialect) : Value → List Token
  | .array (item :: items) => arrayTokens (tokens d item :: tokensAll d items)
  | v => scalarTokens d v

/-- What values are read as. -/
def tokensAll (d : Dialect) : List Value → List (List Token)
  | [] => []
  | v :: vs => tokens d v :: tokensAll d vs

end

/-- A value that is no array is written plainly where it stands without quotes. -/
theorem isPlain_of_literal {v : Value} (hv : v.rawFree) (ha : ∀ x xs, v ≠ .array (x :: xs))
    {l : Literal} (h : v.literal d = .ok l) : l.isPlain := by
  cases v with
  | null => rw [← Except.ok.inj h]; decide
  | bool b => rw [← Except.ok.inj h]; cases b <;> decide
  | int n =>
      rw [← Except.ok.inj h]
      exact List.all_eq_true.mpr fun c hc => isPlain_of_mem_int hc
  | float x =>
      rw [literal] at h
      split at h
      next hx => cases h; exact List.all_eq_true.mpr fun c hc => isPlain_of_mem_float hx hc
      next => cases h
  | numeric n =>
      rw [literal] at h
      split at h
      next hn => cases h; exact List.all_eq_true.mpr fun c hc => isPlain_of_mem_decimal hn hc
      next => cases h
  | array items =>
      cases items with
      | nil => rw [literal] at h; cases h; rfl
      | cons x xs => exact absurd rfl (ha x xs)
  | raw sql => cases hv
  | date t => rw [← Except.ok.inj h]; rfl
  | time t => rw [← Except.ok.inj h]; rfl
  | timestamp t => rw [← Except.ok.inj h]; rfl
  | interval i => rw [← Except.ok.inj h]; rfl
  | text s => rw [← Except.ok.inj h]; rfl
  | bytes bs => rw [← Except.ok.inj h]; rfl

private theorem tokens_of_literal {v : Value} (ha : ∀ x xs, v ≠ .array (x :: xs)) {l : Literal}
    (h : v.literal d = .ok l) : v.tokens d = l.tokens d := by
  rw [tokens.eq_2 d v ha, scalarTokens, h]

/-- Items in brackets are read one by one. -/
theorem part_array {ss : List String} {ps : List (List Char × List Token)}
    (hs : ss.map String.toList = ps.map (·.1))
    (hp : ∀ p ∈ ps, Part d p.1 p.2) :
    Part d ("ARRAY[" ++ ", ".intercalate ss ++ "]").toList (arrayTokens (ps.map (·.2))) := by
  have hsep : Reads d true false [',', ' '] ([',', ' '].map .char) :=
    reads_chars (List.all_eq_true.mp (by decide)) fun h => (List.cons_ne_nil _ _ h).elim
  have hopen : Reads d false false ['A', 'R', 'R', 'A', 'Y', '['] _ :=
    reads_chars (List.all_eq_true.mp (by decide)) fun _ h => h
  have hclose : Reads d true true [']'] [.char ']'] := reads_char (by decide)
  have hitems := Reads.intercalate hsep fun p hp' => (hp p hp').1
  constructor
  · have harray : "ARRAY[".toList = ['A', 'R', 'R', 'A', 'Y', '['] := by simp
    have hcomma : ", ".toList = [',', ' '] := by simp
    have hend : "]".toList = [']'] := by simp
    rw [String.toList_append, String.toList_append, String.toList_intercalate, hs, harray, hcomma,
      hend]
    exact (hopen.append hitems).append hclose
  · have hlevel : Level (([',', ' '].map Token.char).intercalate (ps.map (·.2))) :=
      .intercalate (level_chars (List.all_eq_true.mp (by decide))) fun p hp' => (hp p hp').2
    intro σ
    rw [arrayTokens, nest_append, nest_append]
    show (nest (']' :: σ) _).bind _ = some σ
    rw [hlevel]
    rfl

mutual

/-- A value without raw text is read as tokens of its own. -/
theorem part_literal (v : Value) (hv : v.rawFree) {l : Literal} (h : v.literal d = .ok l) :
    Part d (l.sql d).toList (v.tokens d) := by
  by_cases ha : ∃ x xs, v = .array (x :: xs)
  · obtain ⟨item, items, rfl⟩ := ha
    rw [literal] at h
    obtain ⟨first, hfirst, h⟩ := bind_eq_ok.mp h
    obtain ⟨rest, hrest, h⟩ := bind_eq_ok.mp h
    cases h
    rw [rawFree, rawFreeAll, Bool.and_eq_true] at hv
    obtain ⟨ps, hs, ht, hp⟩ := part_literals items hv.2 hrest
    have hitems : ∀ p ∈ ((first.sql d).toList, item.tokens d) :: ps, Part d p.1 p.2 :=
      List.forall_mem_cons.mpr ⟨part_literal item hv.1 hfirst, hp⟩
    have htexts : (first.sql d :: rest).map String.toList =
        (((first.sql d).toList, item.tokens d) :: ps).map (·.1) := by simp [hs]
    have harray := part_array htexts hitems
    rw [tokens, ht, Literal.sql_verbatim]
    exact harray
  · have ha : ∀ x xs, v ≠ .array (x :: xs) := fun x xs h => ha ⟨x, xs, h⟩
    rw [tokens_of_literal ha h]
    exact Literal.part (isPlain_of_literal hv ha h)

/-- Values without raw text are each read as tokens of their own. -/
theorem part_literals (vs : List Value) (hv : rawFreeAll vs) {ss : List String}
    (h : literals d vs = .ok ss) :
    ∃ ps : List (List Char × List Token), ss.map String.toList = ps.map (·.1) ∧
      tokensAll d vs = ps.map (·.2) ∧ ∀ p ∈ ps, Part d p.1 p.2 := by
  cases vs with
  | nil =>
      rw [literals] at h
      cases h
      exact ⟨[], rfl, by rw [tokensAll]; rfl, fun p hp => (List.not_mem_nil hp).elim⟩
  | cons v vs =>
      rw [literals] at h
      obtain ⟨first, hfirst, h⟩ := bind_eq_ok.mp h
      obtain ⟨rest, hrest, h⟩ := bind_eq_ok.mp h
      cases h
      rw [rawFreeAll, Bool.and_eq_true] at hv
      obtain ⟨ps, hs, ht, hp⟩ := part_literals vs hv.2 hrest
      refine ⟨((first.sql d).toList, v.tokens d) :: ps, by simp [hs], ?_, ?_⟩
      · rw [tokensAll, ht]
        rfl
      · exact List.forall_mem_cons.mpr ⟨part_literal v hv.1 hfirst, hp⟩

end

end Value
end SqlForms
