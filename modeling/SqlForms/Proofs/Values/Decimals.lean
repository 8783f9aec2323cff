import SqlForms.Value.Literal
import SqlForms.Proofs.Exchange.Digits

/-! # What a number looks like

    A number stands in a statement as it is, so the one thing that keeps a
    number text from being anything else is its form: an optional sign, then
    digits with an optional point and optional digits after it, or a point
    and at least one digit.  Here this form is a grammar on its own, and the
    check that a decimal has to pass accepts exactly its texts
    (`isDecimalNumber_iff`).

    The numbers that are not checked need no check: integers and finite
    doubles are always written in this form (`numeral_int`,
    `numeral_float`). -/

namespace SqlForms

namespace Decimal

/-! ## The grammar -/

/-- A decimal number without a sign. -/
inductive Unsigned : List Char → Prop where
  | whole {ds : List Char} : ds ≠ [] → IsRun ds → Unsigned ds
  | pointed {ds places : List Char} :
      ds ≠ [] → IsRun ds → IsRun places → Unsigned (ds ++ '.' :: places)
  | fraction {places : List Char} : places ≠ [] → IsRun places → Unsigned ('.' :: places)

/-- A decimal number with an optional sign. -/
inductive Numeral : List Char → Prop where
  | unsigned {cs : List Char} : Unsigned cs → Numeral cs
  | plus {cs : List Char} : Unsigned cs → Numeral ('+' :: cs)
  | minus {cs : List Char} : Unsigned cs → Numeral ('-' :: cs)

/-- A decimal number without a sign has a character. -/
theorem Unsigned.ne_nil {cs : List Char} (h : Unsigned cs) : cs ≠ [] := by
  cases h with
  | whole hne _ => exact hne
  | pointed hne _ _ => exact List.append_ne_nil_of_left_ne_nil hne _
  | fraction _ _ => exact List.cons_ne_nil _ _

/-- A number without a sign starts with a digit or the point. -/
theorem Unsigned.head {c : Char} {cs : List Char} (h : Unsigned (c :: cs)) :
    c = '.' ∨ isDigit c = true := by
  generalize hcs : c :: cs = text at h
  cases h with
  | whole _ hds => exact .inr (hds c (hcs ▸ List.mem_cons_self))
  | @pointed ds _ hne hds _ =>
      obtain ⟨x, ds, rfl⟩ := List.exists_cons_of_ne_nil hne
      rw [(List.cons.inj hcs).1]
      exact .inr (hds x List.mem_cons_self)
  | fraction _ _ => exact .inl (List.cons.inj hcs).1

/-- So has one with a sign. -/
theorem Numeral.ne_nil {cs : List Char} (h : Numeral cs) : cs ≠ [] := by
  cases h with
  | unsigned h => exact h.ne_nil
  | plus _ => exact List.cons_ne_nil _ _
  | minus _ => exact List.cons_ne_nil _ _

/-! ## The check -/

private theorem isRun_takeWhile (cs : List Char) : IsRun (cs.takeWhile isDigit) :=
  List.all_eq_true.mp List.all_takeWhile

/-- A number without a sign is told by what comes after its first run of digits. -/
theorem unsigned_iff (cs : List Char) :
    Unsigned cs ↔ cs.dropWhile isDigit = [] ∧ cs.takeWhile isDigit ≠ [] ∨
      ∃ places, cs.dropWhile isDigit = '.' :: places ∧ IsRun places ∧
        (cs.takeWhile isDigit ≠ [] ∨ places ≠ []) := by
  constructor
  · intro h
    cases h with
    | whole hne hds =>
        have htake := takeWhile_run hds runEnds_nil
        have hdrop := dropWhile_run hds runEnds_nil
        rw [List.append_nil] at htake hdrop
        exact .inl ⟨hdrop, by rwa [htake]⟩
    | @pointed ds places hne hds hplaces =>
        have hpoint : RunEnds ('.' :: places) := runEnds_cons.mpr rfl
        exact .inr ⟨places, dropWhile_run hds hpoint, hplaces,
          .inl (by rwa [takeWhile_run hds hpoint])⟩
    | @fraction places hne hplaces => exact .inr ⟨places, rfl, hplaces, .inr hne⟩
  · have hcs := List.takeWhile_append_dropWhile (p := isDigit) (l := cs)
    rintro (⟨hrest, hne⟩ | ⟨places, hrest, hplaces, hne⟩)
    · rw [hrest, List.append_nil] at hcs
      exact hcs ▸ .whole hne (isRun_takeWhile cs)
    · rw [hrest] at hcs
      -- A number may start with its point, if digits follow.
      by_cases hwhole : cs.takeWhile isDigit = []
      · rw [hwhole, List.nil_append] at hcs
        exact hcs ▸ .fraction (hne.resolve_left fun h => h hwhole) hplaces
      · exact hcs ▸ .pointed hwhole (isRun_takeWhile cs) hplaces

end Decimal

open Decimal

/-- The check passes over a sign. -/
theorem isDecimalNumber_sign {s : String} {cs : List Char} (hcs : Unsigned cs)
    (hs : s.toList = cs ∨ s.toList = '-' :: cs) :
    isDecimalNumber s = isDecimalNumber (String.ofList ('+' :: cs)) := by
  simp only [isDecimalNumber, String.toList_ofList]
  rcases hs with hs | hs
  · -- What stands for a digit or a point is not taken for a sign.
    obtain ⟨c, cs, rfl⟩ := List.exists_cons_of_ne_nil hcs.ne_nil
    have hminus : c ≠ '-' := by
      rintro rfl
      exact absurd hcs.head (by decide)
    have hplus : c ≠ '+' := by
      rintro rfl
      exact absurd hcs.head (by decide)
    simp [hs, hminus, hplus]
  · simp only [hs]

/-- A plus sign may stand before a decimal number. -/
theorem isDecimalNumber_plus {cs : List Char} (hcs : Unsigned cs) :
    isDecimalNumber (String.ofList ('+' :: cs)) = true := by
  simp only [isDecimalNumber, String.toList_ofList]
  rcases (unsigned_iff cs).mp hcs with ⟨hrest, hne⟩ | ⟨places, hrest, hplaces, hne⟩
  · rw [hrest]
    simpa using hne
  · rw [hrest]
    simpa [List.all_eq_true.mpr hplaces] using hne

/-- **The check accepts exactly the decimal numbers.** -/
theorem isDecimalNumber_iff (s : String) : isDecimalNumber s = true ↔ Numeral s.toList := by
  constructor
  · intro h
    -- Whichever sign was taken off, what is left decides.
    have sign : ∀ cs : List Char, Unsigned cs →
        (s.toList = cs ∨ s.toList = '-' :: cs ∨ s.toList = '+' :: cs) → Numeral s.toList := by
      rintro cs hcs (hs | hs | hs)
      · exact hs ▸ .unsigned hcs
      · exact hs ▸ .minus hcs
      · exact hs ▸ .plus hcs
    rw [isDecimalNumber] at h
    split at h
    next hrest =>
      refine sign _ ((unsigned_iff _).mpr (.inl ⟨hrest, ?_⟩)) (by split <;> simp_all)
      simpa using h
    next places hrest =>
      rw [Bool.and_eq_true] at h
      have hplaces : IsRun places := List.all_eq_true.mp h.1
      refine sign _ ((unsigned_iff _).mpr (.inr ⟨places, hrest, hplaces, ?_⟩))
        (by split <;> simp_all)
      simpa using h.2
    next => cases h
  · intro h
    generalize hs : s.toList = text at h
    cases h with
    | unsigned hcs => rw [isDecimalNumber_sign hcs (.inl hs), isDecimalNumber_plus hcs]
    | minus hcs => rw [isDecimalNumber_sign hcs (.inr hs), isDecimalNumber_plus hcs]
    | plus hcs =>
        rw [← String.ofList_toList (s := s), hs]
        exact isDecimalNumber_plus hcs

/-! ## Numbers that are not checked -/

/-- An integer is written as a decimal number. -/
theorem numeral_int (n : Int) : Numeral (toString n).toList := by
  have hdigits : Unsigned (Nat.toDigits 10 n.natAbs) :=
    .whole Nat.toDigits_ne_nil (isRun_toDigits n.natAbs)
  rw [Readability.toList_toString_int]
  by_cases hn : n < 0
  · rw [if_pos hn]
    exact .minus hdigits
  · rw [if_neg hn]
    exact .unsigned hdigits

/-- Wherever its point stands, a decimal is written as a number. -/
theorem unsigned_positional (d : Decimal) : Unsigned d.positional := by
  have hne := Nat.toDigits_ne_nil (b := 10) (n := d.digits)
  have hrun := isRun_toDigits d.digits
  simp only [positional]
  split
  · exact .whole (List.append_ne_nil_of_left_ne_nil hne _)
      (isRun_append.mpr ⟨hrun, isRun_replicate_zero _⟩)
  · split
    · -- The point stands inside the digits, so there is one before it.
      refine .pointed ?_ (fun c hc => hrun c (List.mem_of_mem_take hc))
        fun c hc => hrun c (List.mem_of_mem_drop hc)
      simp only [ne_eq, List.take_eq_nil_iff]
      exact not_or.mpr ⟨by omega, hne⟩
    · exact .pointed (List.cons_ne_nil '0' []) (isRun_replicate_zero 1)
        (isRun_append.mpr ⟨isRun_replicate_zero _, hrun⟩)

/-- A finite double is written as a decimal number. -/
theorem numeral_float {x : Binary64} (hx : x.isFinite) :
    Numeral (NumberStyle.plain.write x).toList := by
  have hnan : x.isNaN = false := by simp [Binary64.isNaN, hx]
  have hbody : Unsigned (NumberStyle.plain.magnitude (x.shortest NumberStyle.plain.tie)) := by
    simpa [NumberStyle.magnitude, NumberStyle.isPositional, NumberStyle.plain] using
      unsigned_positional (x.shortest NumberStyle.plain.tie)
  rw [NumberStyle.write, if_neg (by simp [hnan]), String.toList_ofList]
  simp only [hx, if_true]
  by_cases hneg : x.isNegative
  · rw [if_pos hneg]
    exact .minus hbody
  · rw [if_neg hneg]
    exact .unsigned hbody

end SqlForms
