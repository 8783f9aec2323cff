import SqlForms.Proofs.Names.Pieces

/-! # An identifier names itself

    Writing a name that was written before changes nothing.  The route:

    * no small letter is a capital again, in any script, so whatever
      lower-casing makes it leaves alone the second time, wherever it stands
      (`isSmall_of_mem_lowerAfter`, `lowerAfter_eq_self`);
    * what stands for an unsafe character is safe, so a piece is its own
      piece (`segmentChars_segmentChars`);
    * pieces have no dots, so the identifier is cut where its pieces meet
      (`segments_write`);
    * only the star and numbered parameters are written as a star or a
      numbered parameter (`not_isFixed_write`). -/

namespace SqlForms

namespace Text

/-! ## Capitals and small letters

    The tables hold about two hundred runs, too many to compare with each
    other one by one.  Held as the bits of one number, two sets of code
    points are disjoint when the numbers have no bit in common. -/

/-- The numbers `first`, `first + step`, … as bits, `count` of them. -/
def bits (first step : Nat) : Nat → Nat
  | 0 => 0
  | count + 1 => bits first step count ||| 1 <<< (first + count * step)

/-- The bits of a run are those of its code points. -/
theorem testBit_bits {first step count n : Nat} :
    (bits first step count).testBit n ↔ ∃ k < count, n = first + k * step := by
  induction count with
  | zero => simp [bits]
  | succ count ih =>
      rw [bits, Nat.testBit_or, Bool.or_eq_true, ih, Nat.one_shiftLeft, Nat.testBit_two_pow,
        decide_eq_true_eq]
      constructor
      · rintro (⟨k, hk, rfl⟩ | h)
        · exact ⟨k, by omega, rfl⟩
        · exact ⟨count, by omega, h.symm⟩
      · rintro ⟨k, hk, rfl⟩
        by_cases hlast : k = count
        · exact .inr (by rw [hlast])
        · exact .inl ⟨k, by omega, rfl⟩

namespace CapitalRun

/-- How many capitals a run has. -/
def count (r : CapitalRun) : Nat :=
  (r.last - r.first) / r.step + 1

/-- The code point of the first small letter. -/
def firstSmall (r : CapitalRun) : Nat :=
  (r.first + r.offset).toNat

/-- A capital is so many steps into its run. -/
theorem exists_of_holds {r : CapitalRun} {n : Nat} (h : r.holds n) :
    ∃ k < r.count, n = r.first + k * r.step := by
  simp only [holds, Bool.and_eq_true, decide_eq_true_eq, beq_iff_eq] at h
  obtain ⟨⟨hfirst, hlast⟩, hstep⟩ := h
  refine ⟨(n - r.first) / r.step, ?_, ?_⟩
  · exact Nat.lt_succ_of_le (Nat.div_le_div_right (by omega))
  · have := Nat.div_mul_cancel (Nat.dvd_of_mod_eq_zero hstep)
    omega

end CapitalRun

/-- The sets of several runs together. -/
def unionBits (f : CapitalRun → Nat) (rs : List CapitalRun) : Nat :=
  rs.foldr (fun r acc => f r ||| acc) 0

/-- The bits of every run are in the union. -/
theorem testBit_unionBits {f : CapitalRun → Nat} {rs : List CapitalRun} {r : CapitalRun}
    (hr : r ∈ rs) {n : Nat} (h : (f r).testBit n) : (unionBits f rs).testBit n := by
  induction rs with
  | nil => cases hr
  | cons s rs ih =>
      rw [unionBits, List.foldr_cons, Nat.testBit_or, Bool.or_eq_true]
      rcases List.mem_cons.mp hr with rfl | hr
      · exact .inl h
      · exact .inr (ih hr)

/-- The code points of the capitals. -/
def capitalBits : Nat :=
  unionBits (fun r => bits r.first r.step r.count) capitalRuns

/-- The code points of their small letters. -/
def smallBits : Nat :=
  unionBits (fun r => bits r.firstSmall r.step r.count) capitalRuns

private theorem testBit_capitalBits {r : CapitalRun} (hr : r ∈ capitalRuns) {n : Nat}
    (h : r.holds n) : capitalBits.testBit n :=
  testBit_unionBits hr (testBit_bits.mpr (CapitalRun.exists_of_holds h))

/-- A capital of a run has its small letter among the small ones. -/
theorem testBit_smallBits {r : CapitalRun} (hr : r ∈ capitalRuns) {n : Nat} (h : r.holds n) :
    smallBits.testBit (n + r.offset).toNat := by
  have hruns : capitalRuns.all fun r => decide (0 ≤ r.first + r.offset) := by decide
  have hfirst := of_decide_eq_true (List.all_eq_true.mp hruns r hr)
  obtain ⟨k, hk, rfl⟩ := CapitalRun.exists_of_holds h
  refine testBit_unionBits hr (testBit_bits.mpr ⟨k, hk, ?_⟩)
  rw [CapitalRun.firstSmall]
  omega

/-- No small letter is a capital again. -/
theorem not_holds_of_small {n : Nat} (h : smallBits.testBit n) {r : CapitalRun}
    (hr : r ∈ capitalRuns) : r.holds n = false := by
  have hdisjoint : capitalBits &&& smallBits = 0 := by decide +kernel
  refine Bool.eq_false_iff.mpr fun hn => ?_
  have hboth : (capitalBits &&& smallBits).testBit n := by
    rw [Nat.testBit_and, testBit_capitalBits hr hn, h]
    rfl
  rw [hdisjoint, Nat.zero_testBit] at hboth
  cases hboth

/-! ## Lower-casing twice -/

/-- Whether lower-casing leaves a character as it is, wherever it stands. -/
structure IsSmall (c : Char) : Prop where
  ne_sigma : c ≠ '\u03a3'
  lower : lowerChar c = [c]

/-- A character in no run of capitals is small, except for the one capital that has no run. -/
theorem IsSmall.of_not_holds {c : Char} (hc : c ≠ '\u0130')
    (h : ∀ r ∈ capitalRuns, r.holds c.toNat = false) : IsSmall c := by
  refine ⟨?_, ?_⟩
  · rintro rfl
    have hsigma : capitalRuns.any fun r => r.holds '\u03a3'.toNat := by decide
    obtain ⟨r, hr, hheld⟩ := List.any_eq_true.mp hsigma
    rw [h r hr] at hheld
    cases hheld
  · have hnone : capitalRuns.find? (·.holds c.toNat) = none :=
      List.find?_eq_none.mpr fun r hr => by simp [h r hr]
    rw [lowerChar, if_neg hc, hnone]

/-- The small letter of a capital is small. -/
theorem isSmall_lower {r : CapitalRun} (hr : r ∈ capitalRuns) {n : Nat} (h : r.holds n) :
    IsSmall (r.lower n) := by
  have hsmall := testBit_smallBits hr h
  have hdotless : smallBits.testBit '\u0130'.toNat = false := by decide +kernel
  have hzero : capitalRuns.all fun r => !r.holds 0 := by decide
  rw [CapitalRun.lower]
  generalize (n + r.offset).toNat = m at hsmall
  by_cases hvalid : m.isValidChar
  · have hcode : (Char.ofNat m).toNat = m := congrArg Char.toNat (dif_pos hvalid)
    refine .of_not_holds (fun hc => ?_) fun s hs => ?_
    · rw [← hcode, hc, hdotless] at hsmall
      cases hsmall
    · rw [hcode]
      exact not_holds_of_small hsmall hs
  -- A number that is no code point would give the character zero, which is no capital either.
  · have hcode : (Char.ofNat m).toNat = 0 := congrArg Char.toNat (dif_neg hvalid)
    refine .of_not_holds (fun hc => ?_) fun s hs => ?_
    · rw [hc] at hcode
      cases hcode
    · rw [hcode]
      simpa using List.all_eq_true.mp hzero s hs

/-- What lower-casing makes of a character is small. -/
theorem isSmall_of_mem_lowerChar {c x : Char} (h : x ∈ lowerChar c) : IsSmall x := by
  rw [lowerChar] at h
  split at h
  next =>
    rcases List.mem_pair.mp h with rfl | rfl
    · exact ⟨by decide, by decide⟩
    · exact ⟨by decide, by decide⟩
  next hc =>
    split at h
    next r hr =>
      rw [List.mem_singleton.mp h]
      exact isSmall_lower (List.mem_of_find?_eq_some hr)
        (List.find?_some (p := fun r : CapitalRun => r.holds c.toNat) hr)
    next hnone =>
      rw [List.mem_singleton.mp h]
      exact .of_not_holds hc fun r hr => by simpa using List.find?_eq_none.mp hnone r hr

/-- Whatever lower-casing makes is small. -/
theorem isSmall_of_mem_lowerAfter {before cs : List Char} {x : Char}
    (h : x ∈ lowerAfter before cs) : IsSmall x := by
  induction cs generalizing before with
  | nil => cases h
  | cons c cs ih =>
      rw [lowerAfter] at h
      rcases List.mem_append.mp h with h | h
      · split at h
        · -- Both forms of the sigma are small.
          split at h
          · rw [List.mem_singleton.mp h]
            exact ⟨by decide, by decide⟩
          · rw [List.mem_singleton.mp h]
            exact ⟨by decide, by decide⟩
        · exact isSmall_of_mem_lowerChar h
      · exact ih h

/-- A text of small characters is its own lower-case form. -/
theorem lowerAfter_eq_self (before : List Char) {cs : List Char} (h : ∀ c ∈ cs, IsSmall c) :
    lowerAfter before cs = cs := by
  induction cs generalizing before with
  | nil => rfl
  | cons c cs ih =>
      have hc := h c List.mem_cons_self
      rw [lowerAfter, if_neg hc.ne_sigma, hc.lower,
        ih _ fun x hx => h x (List.mem_cons_of_mem _ hx)]
      rfl

end Text

namespace Name

open Text

/-! ## Pieces of pieces -/

/-- Making a character safe twice is making it safe. -/
theorem safeChar_safeChar (c : Char) : safeChar (safeChar c) = safeChar c := by
  rcases safeChar_class c with h | h | h
  · rw [safeChar, h, Bool.true_or, if_pos rfl]
  · rw [safeChar, h, Bool.or_true, if_pos rfl]
  · rw [h]
    decide +kernel

/-- A star is not safe, so a segment is written as one only if it is one. -/
theorem segmentChars_eq_star {s : List Char} :
    segmentChars false s = ['*'] ↔ s = ['*'] := by
  constructor
  · intro h
    by_contra hs
    rw [segmentChars_eq false hs] at h
    have hstar : '*' ∈ s.map safeChar := by
      show '*' ∈ wrapped false (s.map safeChar)
      rw [h]
      exact List.mem_singleton_self _
    obtain ⟨c, -, hc⟩ := List.mem_map.mp hstar
    exact absurd (hc ▸ safeChar_class c) (by decide +kernel)
  · rintro rfl
    rfl

/-- A piece without quotes is written as the segment it was made from. -/
theorem segmentChars_segmentChars (quote : Bool) (s : List Char) :
    segmentChars quote (segmentChars false s) = segmentChars quote s := by
  by_cases hs : s = ['*']
  · rw [hs]
    rfl
  · rw [segmentChars_eq quote hs, segmentChars_eq quote (mt segmentChars_eq_star.mp hs),
      segmentChars_eq false hs]
    show wrapped quote ((s.map safeChar).map safeChar) = _
    rw [List.map_map]
    exact congrArg (wrapped quote) (List.map_congr_left fun c _ => safeChar_safeChar c)

/-- What is written for small characters is small. -/
theorem isSmall_of_mem_segmentChars {s : List Char} (h : ∀ c ∈ s, IsSmall c) {x : Char}
    (hx : x ∈ segmentChars false s) : IsSmall x := by
  by_cases hs : s = ['*']
  · rw [segmentChars, if_pos hs] at hx
    exact h x hx
  · rw [segmentChars_eq false hs] at hx
    obtain ⟨c, hc, rfl⟩ := List.mem_map.mp hx
    rw [safeChar]
    split
    · exact h c hc
    · exact ⟨by decide, by decide⟩

/-! ## Names -/

private theorem write_of_isFixed {n : String} (h : IsFixed n) (quote : Bool) :
    write quote n = n := by
  rw [write, chars, if_pos ((isFixed_iff n).mp h), String.ofList_toList]

/-- The pieces that a name is written as, without quotes. -/
def pieces (n : String) : List (List Char) :=
  (segments (lowercase n.toList)).map (segmentChars false)

private theorem pieces_ne_nil (n : String) : pieces n ≠ [] := by
  simpa [pieces] using segments_ne_nil _

/-- No piece of a name has a dot. -/
theorem dot_not_mem_of_mem_pieces {n : String} {p : List Char} (h : p ∈ pieces n) : '.' ∉ p := by
  obtain ⟨s, -, rfl⟩ := List.mem_map.mp h
  -- Any segment goes together with itself; only the form of its piece counts here.
  have hself : Matches s s := ⟨Iff.rfl, Iff.rfl⟩
  exact (hself.piece false).dot_not_mem

/-- The characters of a segment are characters of the text. -/
theorem mem_of_mem_segments {cs s : List Char} (hs : s ∈ segments cs) {c : Char} (hc : c ∈ s) :
    c ∈ cs := by
  induction cs generalizing s with
  | nil =>
      rw [List.mem_singleton.mp hs] at hc
      cases hc
  | cons x cs ih =>
      by_cases hx : x = '.'
      · rw [segments, if_pos hx] at hs
        rcases List.mem_cons.mp hs with rfl | hs
        · cases hc
        · exact List.mem_cons_of_mem _ (ih hs hc)
      · rw [segments_cons_of_ne hx] at hs
        obtain ⟨first, rest, hsegments⟩ := List.exists_cons_of_ne_nil (segments_ne_nil cs)
        rw [hsegments] at ih hs
        rcases List.mem_cons.mp hs with rfl | hs
        · rcases List.mem_cons.mp hc with rfl | hc
          · exact List.mem_cons_self
          · exact List.mem_cons_of_mem _ (ih List.mem_cons_self hc)
        · exact List.mem_cons_of_mem _ (ih (List.mem_cons_of_mem _ hs) hc)

variable {n : String}

private theorem toList_write (h : ¬ IsFixed n) :
    (write false n).toList = ['.'].intercalate (pieces n) :=
  toList_write_of_not_isFixed h false

/-- An identifier is cut where its pieces meet. -/
theorem segments_write (h : ¬ IsFixed n) : segments (write false n).toList = pieces n := by
  rw [segments_eq_splitOn, toList_write h]
  exact List.splitOn_intercalate '.' (fun _ hp => dot_not_mem_of_mem_pieces hp) (pieces_ne_nil n)

/-- A character of an identifier is a dot or belongs to a piece. -/
theorem mem_write (h : ¬ IsFixed n) {x : Char} (hx : x ∈ (write false n).toList) :
    x = '.' ∨ ∃ p ∈ pieces n, x ∈ p := by
  rw [toList_write h] at hx
  generalize pieces n = ps at hx ⊢
  induction ps with
  | nil => cases hx
  | cons p ps ih =>
      cases ps with
      | nil => exact .inr ⟨p, List.mem_cons_self, by simpa using hx⟩
      | cons q ps =>
          rw [List.intercalate_cons_cons, List.mem_append, List.mem_append] at hx
          rcases hx with (hx | hx) | hx
          · exact .inr ⟨p, List.mem_cons_self, hx⟩
          · exact .inl (List.mem_singleton.mp hx)
          · refine (ih hx).imp_right fun ⟨p', hp', hx⟩ => ?_
            exact ⟨p', List.mem_cons_of_mem _ hp', hx⟩

/-- An identifier is in lower case. -/
theorem lowercase_write (h : ¬ IsFixed n) :
    lowercase (write false n).toList = (write false n).toList := by
  refine lowerAfter_eq_self [] fun x hx => ?_
  rcases mem_write h hx with rfl | ⟨p, hp, hx⟩
  · exact ⟨by decide, by decide⟩
  · obtain ⟨s, hs, rfl⟩ := List.mem_map.mp hp
    exact isSmall_of_mem_segmentChars
      (fun c hc => isSmall_of_mem_lowerAfter (mem_of_mem_segments hs hc)) hx

/-- A name that is not written as it is does not become one that would be. -/
theorem not_isFixed_write (h : ¬ IsFixed n) : ¬ IsFixed (write false n) := by
  rintro (hstar | ⟨ds, hds, -⟩)
  · -- The one piece is a star, so the one segment of the name was a star already.
    have hpieces : pieces n = [['*']] := by
      rw [← segments_write h, hstar]
      rfl
    obtain ⟨s, hs, hpiece⟩ := List.map_eq_singleton_iff.mp hpieces
    have hmatches := matches_lowerAfter [] n.toList
    rw [← lowercase, hs] at hmatches
    obtain ⟨s', rest, hs', hrest, hsegments⟩ := List.forall₂_cons_right_iff.mp hmatches
    rw [List.forall₂_nil_right_iff.mp hrest,
      hs'.star.mpr (segmentChars_eq_star.mp hpiece)] at hsegments
    have hjoin : ['.'].intercalate (n.toList.splitOn '.') = n.toList := List.intercalate_splitOn '.'
    rw [← segments_eq_splitOn, hsegments] at hjoin
    exact h (.inl (String.toList_injective hjoin.symm))
  · -- A piece has no dollar sign.
    have hdollar : '$' ∈ (write false n).toList := by
      rw [hds]
      exact List.mem_cons_self
    rcases mem_write h hdollar with hdot | ⟨p, hp, hdollar⟩
    · cases hdot
    · obtain ⟨s, -, rfl⟩ := List.mem_map.mp hp
      by_cases hs : s = ['*']
      · rw [hs] at hdollar
        cases List.mem_singleton.mp hdollar
      · rw [segmentChars_eq false hs] at hdollar
        obtain ⟨c, -, hc⟩ := List.mem_map.mp hdollar
        exact absurd (hc ▸ safeChar_class c) (by decide +kernel)

/-- **An identifier names itself.**  A name that was written without quotes is written, with quotes
    or without, as the name it was made from; without quotes that is as it is. -/
theorem write_write (quote : Bool) (n : String) : write quote (write false n) = write quote n := by
  by_cases h : IsFixed n
  · rw [write_of_isFixed h false]
  · have hw := not_isFixed_write h
    apply String.toList_injective
    rw [toList_write_of_not_isFixed hw, lowercase_write h, segments_write h, pieces, List.map_map,
      toList_write_of_not_isFixed h]
    exact congrArg _ (List.map_congr_left fun s _ => segmentChars_segmentChars quote s)

/-- A capital that becomes two characters, and a sigma that ends its word. -/
example :
    write false "\u0130D.\u039f\u03a3.*" = "i_d.\u03bf\u03c2.*" ∧
      write true "i_d.\u03bf\u03c2.*" = "\"i_d\".\"\u03bf\u03c2\".*" := by
  decide +kernel

end Name
end SqlForms
