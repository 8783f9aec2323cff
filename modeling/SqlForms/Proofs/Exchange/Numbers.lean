import SqlForms.Json.Token
import SqlForms.Proofs.Exchange.Shortest

/-! # Numbers in JSON texts

    A number text has a whole part, perhaps places after a point, and
    perhaps a power of ten.  Reading such a text gives the decimal of its
    parts.  Integers are written with a whole part alone; doubles always
    have a place or a power, so that they are not taken for integers, and
    the decimal of their text has the value of the shortest one. -/

namespace SqlForms

open Decimal

/-- A number text in its parts. -/
structure NumberText where
  whole : List Char
  places : List Char
  power : Option Int

namespace NumberText

/-- The point and the places after it. -/
def pointed : List Char → List Char
  | [] => []
  | ds => '.' :: ds

private theorem pointed_cons (c : Char) (ds : List Char) : pointed (c :: ds) = '.' :: c :: ds :=
  rfl

private theorem pointed_of_ne_nil {ds : List Char} (h : ds ≠ []) : pointed ds = '.' :: ds := by
  obtain ⟨c, ds, rfl⟩ := List.exists_cons_of_ne_nil h
  rfl

/-- A power of ten with its sign. -/
def signed (p : Int) : List Char :=
  (if p < 0 then [] else ['+']) ++ (toString p).toList

/-- The power of ten after its mark. -/
def powered : Option Int → List Char
  | none => []
  | some p => 'e' :: signed p

/-- The characters of a number text. -/
def chars (t : NumberText) : List Char :=
  t.whole ++ (pointed t.places ++ powered t.power)

/-- The decimal that the parts give. -/
def decimal (t : NumberText) : Decimal :=
  ⟨ofDigits (t.whole ++ t.places), t.power.getD 0 - t.places.length⟩

/-- Whether the parts are runs of digits, with no zero in front of the whole part. -/
structure IsValid (t : NumberText) : Prop where
  whole_ne : t.whole ≠ []
  whole_run : IsRun t.whole
  leading : ¬ (t.whole.length > 1 ∧ t.whole.head? = some '0')
  places_run : IsRun t.places

/-! ## Reading the parts -/

/-- No exponent starts with a digit. -/
theorem runEnds_powered (p : Option Int) : RunEnds (powered p) := by
  cases p with
  | none => exact runEnds_nil
  | some p => exact runEnds_cons.mpr (by decide)

/-- Neither does a fraction with an exponent. -/
theorem runEnds_pointed (ds : List Char) (p : Option Int) :
    RunEnds (pointed ds ++ powered p) := by
  cases ds with
  | nil => exact runEnds_powered p
  | cons c ds => exact runEnds_cons.mpr (by decide)

/-- An exponent is read with its sign. -/
theorem readExponent?_signed (p : Int) : readExponent? (signed p) = some p := by
  have hne := Nat.toDigits_ne_nil (b := 10) (n := p.natAbs)
  have hall : (Nat.toDigits 10 p.natAbs).all isDigit = true :=
    List.all_eq_true.mpr (isRun_toDigits p.natAbs)
  rw [signed, Readability.toList_toString_int]
  by_cases hp : p < 0
  · simp only [hp, if_true, List.nil_append, List.singleton_append, readExponent?, hall, ne_eq, hne,
      not_false_eq_true, and_self, ofDigits_toDigits]
    simp only [Option.some.injEq, Int.ofNat_eq_natCast]
    omega
  · simp only [hp, if_false, List.nil_append, List.singleton_append, readExponent?, hall, ne_eq,
      hne, not_false_eq_true, and_self, if_true, ofDigits_toDigits]
    simp only [Option.some.injEq, Int.ofNat_eq_natCast, Bool.false_eq_true, if_false]
    omega

/-- The characters of a valid number are read as the decimal they denote. -/
theorem read?_chars {t : NumberText} (h : t.IsValid) : Decimal.read? t.chars = some t.decimal := by
  have hends := runEnds_pointed t.places t.power
  have hplaces := takeWhile_run h.places_run (runEnds_powered t.power)
  have hrest := dropWhile_run h.places_run (runEnds_powered t.power)
  simp only [Decimal.read?, chars, decimal, takeWhile_run h.whole_run hends,
    dropWhile_run h.whole_run hends]
  rcases t with ⟨whole, places, power⟩
  cases places with
  | nil =>
      cases power with
      | none => simp [pointed, powered, h.whole_ne]
      | some p =>
        simp only [pointed, powered, List.nil_append, h.whole_ne]
        simp [readExponent?_signed]
  | cons c ds =>
      simp only [pointed, List.cons_append] at hplaces hrest ⊢
      cases power with
      | none =>
        simp only [hplaces, hrest]
        simp [powered]
      | some p =>
        simp only [hplaces, hrest]
        simp [powered, readExponent?_signed]

/-- A valid number starts with a digit. -/
theorem head?_chars {t : NumberText} (h : t.IsValid) {c : Char} {cs : List Char}
    (hcs : t.chars = c :: cs) : isDigit c = true := by
  obtain ⟨d, ds, hd⟩ := List.exists_cons_of_ne_nil h.whole_ne
  rw [chars, hd, List.cons_append, List.cons.injEq] at hcs
  exact hcs.1 ▸ h.whole_run d (by simp [hd])

/-- A text of valid parts is a JSON number, an integer if only the whole part is there. -/
theorem number?_chars {t : NumberText} (h : t.IsValid) (negative : Bool) :
    JsonToken.number? ((if negative then ['-'] else []) ++ t.chars) =
      some (JsonToken.numberOf? negative (t.places.isEmpty && t.power.isNone) t.decimal) := by
  have hread := read?_chars h
  have hends := runEnds_pointed t.places t.power
  have hwhole := takeWhile_run h.whole_run hends
  have hrest := dropWhile_run h.whole_run hends
  rw [← chars] at hwhole hrest
  have hgate : ¬ (t.whole = [] ∨ (t.whole.length > 1 ∧ t.whole.head? = some '0')) :=
    not_or.mpr ⟨h.whole_ne, h.leading⟩
  have hplaces := h.places_run
  cases negative
  case' true => simp only [JsonToken.number?, if_true, List.singleton_append]
  case' false =>
    simp only [JsonToken.number?, Bool.false_eq_true, if_false, List.nil_append]
    split
    next hcs => exact absurd (head?_chars h hcs) (by decide)
  all_goals
    simp only [hwhole, hrest, if_neg hgate, hread]
    rcases t with ⟨whole, places, power⟩
    cases places with
    | nil => cases power <;> simp [pointed, powered]
    | cons d ds => simp [pointed, (isRun_cons.mp hplaces).1]

/-! ## The characters of a number -/

private theorem isWordChar_of_isDigit {c : Char} (h : isDigit c = true) :
    JsonToken.isWordChar c = true := by
  rw [isDigit_eq] at h
  simp [JsonToken.isWordChar, Char.isAlphanum, h]

/-- A number is one bare word, with its sign. -/
theorem isWordChar_chars {t : NumberText} (h : t.IsValid) (negative : Bool) :
    ∀ c ∈ (if negative then ['-'] else []) ++ t.chars, JsonToken.isWordChar c = true := by
  have hsigned : ∀ p, ∀ c ∈ signed p, JsonToken.isWordChar c = true := by
    intro p c hc
    rcases List.mem_append.mp hc with hc | hc
    · split at hc
      · cases hc
      · rw [List.mem_singleton.mp hc]
        rfl
    · rcases Readability.of_mem_int hc with rfl | hc
      · rfl
      · exact isWordChar_of_isDigit (by rwa [isDigit_eq])
  simp only [chars, List.mem_append]
  -- The sign, the digits before the point, those after it, and the exponent.
  rintro c (hc | hc | hc | hc)
  · split at hc
    · rw [List.mem_singleton.mp hc]
      rfl
    · cases hc
  · exact isWordChar_of_isDigit (h.whole_run c hc)
  · cases hp : t.places with
    | nil => simp [hp, pointed] at hc
    | cons d ds =>
      rw [hp, pointed_cons] at hc
      rcases List.mem_cons.mp hc with rfl | hc
      · rfl
      · exact isWordChar_of_isDigit (h.places_run c (hp ▸ hc))
  · cases hp : t.power with
    | none => simp [hp, powered] at hc
    | some p =>
      rw [hp, powered, List.mem_cons] at hc
      rcases hc with rfl | hc
      · rfl
      · exact hsigned p c hc

/-! ## Integers -/

private theorem head?_toDigits_append (n : Nat) (cs : List Char) :
    (Nat.toDigits 10 n ++ cs).head? = (Nat.toDigits 10 n).head? := by
  have hsome : (Nat.toDigits 10 n).head?.isSome := by simp [Nat.toDigits_ne_nil]
  rw [List.head?_append, Option.or_of_isSome hsome]

private theorem head?_toDigits_ne_zero {n : Nat} (h : n ≠ 0) :
    (Nat.toDigits 10 n).head? ≠ some '0' := by
  induction n using Nat.strongRecOn with
  | ind n ih =>
      by_cases hlt : n < 10
      · rw [Nat.toDigits_of_lt_base hlt]
        simpa using h
      · rw [Nat.toDigits_of_base_le (by decide) (by omega), head?_toDigits_append]
        exact ih (n / 10) (by omega) (by omega)

/-- The digits of a number have no zero in front. -/
theorem leading_toDigits (n : Nat) :
    ¬ ((Nat.toDigits 10 n).length > 1 ∧ (Nat.toDigits 10 n).head? = some '0') := by
  rintro ⟨hlen, hhead⟩
  have hn : n = 0 := by
    by_contra hne
    exact head?_toDigits_ne_zero hne hhead
  simp [hn] at hlen

/-- The text of a natural number. -/
def ofNat (n : Nat) : NumberText :=
  ⟨Nat.toDigits 10 n, [], none⟩

private theorem isValid_ofNat (n : Nat) : (ofNat n).IsValid :=
  ⟨Nat.toDigits_ne_nil, isRun_toDigits n, leading_toDigits n, isRun_nil⟩

private theorem decimal_ofNat (n : Nat) : (ofNat n).decimal = ⟨n, 0⟩ := by
  simp [decimal, ofNat, ofDigits_toDigits]

/-! ## Doubles -/

/-- What a text has to be to stand for a decimal as a double: it is valid, it is not taken for an
    integer, and its own decimal has the same value. -/
structure Denotes (t : NumberText) (d : Decimal) : Prop where
  valid : t.IsValid
  fractional : (t.places.isEmpty && t.power.isNone) = false
  value_eq : t.decimal.value = d.value

/-- A whole number keeps a zero after its point. -/
theorem denotes_whole {d : Decimal} (h0 : d.digits = 0 → d.exponent = 0) (he : 0 ≤ d.exponent) :
    Denotes ⟨Nat.toDigits 10 d.digits ++ List.replicate d.exponent.toNat '0', ['0'], none⟩ d := by
  refine ⟨⟨?_, ?_, ?_, isRun_replicate_zero 1⟩, rfl, ?_⟩
  · exact List.append_ne_nil_of_left_ne_nil Nat.toDigits_ne_nil _
  · exact isRun_append.mpr ⟨isRun_toDigits _, isRun_replicate_zero _⟩
  · by_cases hd : d.digits = 0
    · simp [hd, h0 hd]
    · rintro ⟨-, hhead⟩
      rw [head?_toDigits_append] at hhead
      exact head?_toDigits_ne_zero hd hhead
  · have hdigits : ofDigits (Nat.toDigits 10 d.digits ++ List.replicate d.exponent.toNat '0' ++
        ['0']) = d.digits * Nat.pow 10 d.exponent.toNat * Nat.pow 10 1 := by
      rw [← ofDigits_toDigits d.digits, ← ofDigits_append_zeros, ← ofDigits_append_zeros,
        ofDigits_toDigits]
      rfl
    have hten : (10 : ℚ) ^ d.exponent = 10 ^ d.exponent.toNat := by
      rw [← zpow_natCast, Int.toNat_of_nonneg he]
    simp only [decimal, value, hdigits, hten, Nat.pow_eq]
    push_cast
    simp

/-- With the point inside the digits, or in front of them, the decimal itself is read. -/
theorem denotes_point {d : Decimal} (hd : d.digits ≠ 0) (he : d.exponent < 0)
    (hp : 0 < (Nat.toDigits 10 d.digits).length + d.exponent) :
    Denotes ⟨(Nat.toDigits 10 d.digits).take ((Nat.toDigits 10 d.digits).length + d.exponent).toNat,
      (Nat.toDigits 10 d.digits).drop ((Nat.toDigits 10 d.digits).length + d.exponent).toNat,
      none⟩ d := by
  have hrun := isRun_toDigits d.digits
  have hne := Nat.toDigits_ne_nil (b := 10) (n := d.digits)
  have hhead := head?_toDigits_ne_zero hd
  have hvalue := ofDigits_toDigits d.digits
  -- From here on only the run of digits matters, cut after its first `k`.
  generalize Nat.toDigits 10 d.digits = ds at *
  generalize hk : (ds.length + d.exponent).toNat = k
  have hlt : k < ds.length := by omega
  refine ⟨⟨?_, ?_, ?_, ?_⟩, ?_, ?_⟩
  · simp only [ne_eq, List.take_eq_nil_iff]
    exact not_or.mpr ⟨by omega, hne⟩
  · exact fun c hc => hrun c (List.mem_of_mem_take hc)
  · rintro ⟨-, h⟩
    rw [List.head?_take, if_neg (by omega)] at h
    exact hhead h
  · exact fun c hc => hrun c (List.mem_of_mem_drop hc)
  · simp only [Option.isNone_none, Bool.and_true, List.isEmpty_eq_false_iff, ne_eq,
      List.drop_eq_nil_iff]
    omega
  · have heq : decimal ⟨ds.take k, ds.drop k, none⟩ = d := by
      have hexp : (0 : Int) - ((ds.length - k : Nat) : Int) = d.exponent := by omega
      simp only [decimal, List.take_append_drop, List.length_drop, Option.getD_none, hexp, hvalue]
    rw [heq]

/-- A decimal below one is written with zeros after the point. -/
theorem denotes_small {d : Decimal} (hp : (Nat.toDigits 10 d.digits).length + d.exponent ≤ 0) :
    Denotes ⟨['0'], List.replicate (-((Nat.toDigits 10 d.digits).length + d.exponent)).toNat '0' ++
      Nat.toDigits 10 d.digits, none⟩ d := by
  refine ⟨⟨by simp, isRun_replicate_zero 1, by simp, ?_⟩, ?_, ?_⟩
  · exact isRun_append.mpr ⟨isRun_replicate_zero _, isRun_toDigits _⟩
  · simp [Nat.toDigits_ne_nil]
  · have hdigits : ofDigits (['0'] ++ (List.replicate
        (-((Nat.toDigits 10 d.digits).length + d.exponent)).toNat '0' ++
          Nat.toDigits 10 d.digits)) = d.digits := by
      rw [show ['0'] = List.replicate 1 '0' by rfl, ofDigits_zeros_append, ofDigits_zeros_append,
        ofDigits_toDigits]
    have hexp : (0 : Int) - ((-((Nat.toDigits 10 d.digits).length + d.exponent)).toNat +
        (Nat.toDigits 10 d.digits).length : Nat) = d.exponent := by omega
    simp only [decimal, hdigits, List.length_append, List.length_replicate, Option.getD_none, hexp]

/-- A decimal is written with one digit before the point and an exponent. -/
theorem denotes_scientific {d : Decimal} {c : Char} {cs : List Char}
    (hds : Nat.toDigits 10 d.digits = c :: cs) :
    Denotes ⟨[c], cs, some ((Nat.toDigits 10 d.digits).length + d.exponent - 1)⟩ d := by
  have hrun := isRun_cons.mp (hds ▸ isRun_toDigits d.digits)
  refine ⟨⟨by simp, isRun_cons.mpr ⟨hrun.1, isRun_nil⟩, by simp, hrun.2⟩, by simp, ?_⟩
  have hexp : (Nat.toDigits 10 d.digits).length + d.exponent - 1 - cs.length = d.exponent := by
    rw [hds, List.length_cons]
    push_cast
    ring
  have hdigits : ofDigits ([c] ++ cs) = d.digits := by
    rw [List.singleton_append, ← hds, ofDigits_toDigits]
  simp only [decimal, hdigits, Option.getD_some, hexp]

/-- However a decimal is written, its text stands for it. -/
theorem exists_denotes {d : Decimal} (h0 : d.digits = 0 → d.exponent = 0) :
    ∃ t : NumberText, t.Denotes d ∧ JsonNumber.style.magnitude d = t.chars := by
  unfold NumberStyle.magnitude
  split
  next hpos =>
    by_cases he : d.exponent ≥ 0
    · refine ⟨_, denotes_whole h0 he, ?_⟩
      simp [positional, he, JsonNumber.style, chars, pointed, powered]
    · -- Zero is written with exponent zero, so it never comes here.
      have hd : d.digits ≠ 0 := fun h => he (by rw [h0 h])
      by_cases hp : (Nat.toDigits 10 d.digits).length + d.exponent > 0
      · have hden := denotes_point hd (by omega) hp
        refine ⟨_, hden, ?_⟩
        have hplaces : (Nat.toDigits 10 d.digits).drop
            ((Nat.toDigits 10 d.digits).length + d.exponent).toNat ≠ [] := by
          simpa using hden.fractional
        simp [positional, he, hp, JsonNumber.style, chars, pointed_of_ne_nil hplaces, powered]
      · refine ⟨_, denotes_small (by omega), ?_⟩
        simp [positional, he, hp, JsonNumber.style, chars, pointed_of_ne_nil, powered,
          Nat.toDigits_ne_nil]
  next hsci =>
    obtain ⟨c, cs, hds⟩ :=
      List.exists_cons_of_ne_nil (Nat.toDigits_ne_nil (b := 10) (n := d.digits))
    refine ⟨_, denotes_scientific hds, ?_⟩
    -- A single digit has no point after it.
    cases cs with
    | nil =>
        simp only [scientific, hds, chars, pointed, powered, signed, JsonNumber.style]
        rfl
    | cons c' cs =>
        simp only [scientific, hds, chars, pointed, powered, signed, JsonNumber.style]
        rfl

end NumberText

/-! ## Numbers -/

namespace JsonNumber

/-- The shortest decimal of a zero has no exponent. -/
theorem shortest_exponent {x : Binary64} (h : x.isFinite = true) (tie : Tie) :
    (x.shortest tie).digits = 0 → (x.shortest tie).exponent = 0 := by
  intro h0
  by_cases hm : x.mantissa = 0
  · simp [Binary64.shortest, hm, Decimal.shortest]
  · have hp := Binary64.isParts_parts h hm
    exact absurd h0 (Decimal.digits_ne_zero hp (Decimal.near_shortest hp tie))

/-- The text of a number is a valid number text, and reading it gives the number back. -/
theorem exists_text (n : JsonNumber) :
    ∃ (negative : Bool) (t : NumberText), t.IsValid ∧
      n.text.toList = (if negative then ['-'] else []) ++ t.chars ∧
      JsonToken.numberOf? negative (t.places.isEmpty && t.power.isNone) t.decimal = some n := by
  cases n with
  | integer n ge lt =>
      refine ⟨decide (n < 0), .ofNat n.natAbs, NumberText.isValid_ofNat _, ?_, ?_⟩
      · rw [text, Readability.toList_toString_int]
        simp [NumberText.chars, NumberText.ofNat, NumberText.pointed, NumberText.powered]
      · -- A negative zero would be a double, but an integer zero has no sign.
        have hsigned : (if decide (n < 0) then -(n.natAbs : Int) else n.natAbs) = n := by
          simp only [decide_eq_true_eq]
          omega
        have hzero : ¬ (decide (n < 0) = true ∧ n = 0) := by
          simp only [decide_eq_true_eq]
          omega
        simp only [NumberText.decimal_ofNat, JsonToken.numberOf?, hsigned, hzero]
        simp [NumberText.ofNat, ofInt?, ge, lt]
  | float x h =>
      obtain ⟨t, ht, hchars⟩ := NumberText.exists_denotes (shortest_exponent h style.tie)
      refine ⟨x.isNegative, t, ht.valid, ?_, ?_⟩
      · simp [text, NumberStyle.write, Binary64.isNaN, h, ← hchars]
      · rw [ht.fractional]
        have hx : t.decimal.toBinary64 x.isNegative = x := Binary64.toBinary64_eq h ht.value_eq
        simp [JsonToken.numberOf?, hx, h]

/-- The text of a number is read as the number. -/
theorem number?_text (n : JsonNumber) : JsonToken.number? n.text.toList = some (some n) := by
  obtain ⟨negative, t, ht, hchars, hn⟩ := n.exists_text
  rw [hchars, NumberText.number?_chars ht, hn]

/-- The text of a number is one bare word. -/
theorem isWordChar_text (n : JsonNumber) : ∀ c ∈ n.text.toList, JsonToken.isWordChar c = true := by
  obtain ⟨negative, t, ht, hchars, -⟩ := n.exists_text
  rw [hchars]
  exact NumberText.isWordChar_chars ht negative

end JsonNumber
end SqlForms
