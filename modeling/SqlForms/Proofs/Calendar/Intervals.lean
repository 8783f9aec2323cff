import SqlForms.Value.Read
import SqlForms.Proofs.Exchange.Digits
import SqlForms.Proofs.Values.Shapes

/-! # Intervals read back

    The text of an interval is a row of words, in turn an amount and a unit.
    Neither holds a space, so splitting the text at its spaces gives the
    words back, and an amount is read back as the integer it was written
    from.  Units that are not there are zero.  An interval of zeros has to
    name a unit all the same, and no other interval names one that is zero.

    * `Interval.read?` is the reader: words, pairs, and the amount of each
      unit among the pairs;
    * `Interval.shown` are the pairs that are written, and `amount_shown`
      says that looking a unit up among them gives its amount, zero or not. -/

namespace SqlForms

open Decimal

/-! ## Integers -/

namespace ScalarType

private theorem natural?_toDigits (n : Nat) : natural? (Nat.toDigits 10 n) = some n := by
  have hrun : (Nat.toDigits 10 n).all isDigit := List.all_eq_true.mpr (isRun_toDigits n)
  rw [natural?, if_pos ⟨Nat.toDigits_ne_nil, hrun⟩, ofDigits_toDigits]

/-- The text of a signed word is read back. -/
theorem signed?_toString (n : Int64) : signed? 64 (toString n.toInt) = some n.toInt := by
  have hfits : ∀ m : Int, m = n.toInt →
      (if -Int.pow 2 (64 - 1) ≤ m ∧ m < Int.pow 2 (64 - 1) then some m else none) =
        some n.toInt := by
    rintro m rfl
    exact if_pos ⟨Int64.le_toInt n, Int64.toInt_lt n⟩
  have hdigits := natural?_toDigits n.toInt.natAbs
  rw [signed?, Readability.toList_toString_int]
  by_cases hneg : n.toInt < 0
  · rw [if_pos hneg]
    show (natural? (Nat.toDigits 10 n.toInt.natAbs)).map _ >>= _ = _
    rw [hdigits, Option.map_some, Option.bind_eq_bind, Option.bind_some]
    refine hfits (-Int.ofNat n.toInt.natAbs) ?_
    rw [Int.ofNat_eq_natCast]
    omega
  · rw [if_neg hneg, List.nil_append]
    have hsign : ∀ c cs, Nat.toDigits 10 n.toInt.natAbs = c :: cs → isDigit c = true :=
      fun c cs h => isRun_toDigits n.toInt.natAbs c (h ▸ List.mem_cons_self)
    -- The first character is a digit, so it is neither of the signs.
    split
    next h => exact absurd (hsign _ _ h) (by decide)
    next h => exact absurd (hsign _ _ h) (by decide)
    next =>
      rw [hdigits, Option.map_some, Option.bind_eq_bind, Option.bind_some]
      refine hfits (Int.ofNat n.toInt.natAbs) ?_
      rw [Int.ofNat_eq_natCast]
      omega

end ScalarType

namespace Calendar.Interval

/-! ## The reader -/

/-- The names of the units, from the longest to the shortest. -/
def units : List String :=
  ["years", "months", "days", "hours", "minutes", "seconds", "milliseconds"]

/-- Words in turn as an amount and a unit. -/
def readPairs? : List (List Char) → Option (List (String × Int64))
  | [] => some []
  | [_] => none
  | amount :: unit :: rest => do
      let n ← ScalarType.signed? 64 (String.ofList amount)
      let more ← readPairs? rest
      return (String.ofList unit, Int64.ofInt n) :: more

/-- The amount of a unit among pairs; zero for a unit that is not there. -/
def amount (ps : List (String × Int64)) (unit : String) : Int64 :=
  (ps.lookup unit).getD 0

/-- Reads an interval: words divided by single spaces, in turn an amount and a unit, no unit
    twice. -/
def read? (s : String) : Option Interval := do
  let ps ← readPairs? (s.toList.splitOn ' ')
  if (ps.map (·.1)).Nodup ∧ ∀ p ∈ ps, p.1 ∈ units then some (ofAmounts (units.map (amount ps)))
  else none

/-! ## The pairs that are written -/

/-- The units that the text of an interval names, with their amounts. -/
def shown (i : Interval) : List (String × Int64) :=
  if i.components.filter (·.2 != 0) = [] then [("milliseconds", 0)]
  else i.components.filter (·.2 != 0)

/-- The text of an interval lists the components that are shown. -/
theorem text_eq (i : Interval) : i.text = " ".intercalate (i.shown.map componentText) := by
  unfold text shown
  split
  next h =>
    rw [if_pos h]
    decide
  next hne => rw [if_neg hne]

/-- Some component is always shown. -/
theorem shown_ne_nil (i : Interval) : i.shown ≠ [] := by
  unfold shown
  split
  next => exact List.cons_ne_nil _ _
  next hne => exact hne

private theorem amount_cons_self (p : String × Int64) (ps : List (String × Int64)) :
    amount (p :: ps) p.1 = p.2 := by
  rw [amount, List.lookup_cons_self, Option.getD_some]

private theorem amount_cons_of_ne {p : String × Int64} {unit : String} (h : unit ≠ p.1)
    (ps : List (String × Int64)) : amount (p :: ps) unit = amount ps unit := by
  rw [amount, List.lookup_cons, beq_eq_false_iff_ne.mpr h]
  rfl

/-- A unit that is not listed has the amount zero. -/
theorem amount_of_not_mem {ps : List (String × Int64)} {unit : String}
    (h : unit ∉ ps.map (·.1)) : amount ps unit = 0 := by
  induction ps with
  | nil => rfl
  | cons p ps ih =>
      obtain ⟨hne, hrest⟩ := not_or.mp (mt List.mem_cons.mpr h)
      rw [amount_cons_of_ne hne, ih hrest]

/-- Leaving out the units that are zero changes no amount. -/
theorem amount_filter {ps : List (String × Int64)} (hd : (ps.map (·.1)).Nodup)
    {c : String × Int64} (hc : c ∈ ps) : amount (ps.filter (·.2 != 0)) c.1 = c.2 := by
  induction ps with
  | nil => cases hc
  | cons p ps ih =>
      obtain ⟨hp, hd⟩ := List.nodup_cons.mp hd
      rcases List.mem_cons.mp hc with rfl | hc
      · by_cases hz : c.2 = 0
        · have hnot : c.1 ∉ (ps.filter (·.2 != 0)).map (·.1) := fun hm =>
            hp ((List.filter_sublist.map _).subset hm)
          rw [List.filter_cons_of_neg (by simp [hz]), amount_of_not_mem hnot, hz]
        · rw [List.filter_cons_of_pos (by simp [hz]), amount_cons_self]
      · have hne : c.1 ≠ p.1 := by
          intro he
          exact hp (List.mem_map.mpr ⟨c, hc, he⟩)
        by_cases hz : p.2 = 0
        · rw [List.filter_cons_of_neg (by simp [hz]), ih hd hc]
        · rw [List.filter_cons_of_pos (by simp [hz]), amount_cons_of_ne hne, ih hd hc]

private theorem units_eq (i : Interval) : i.components.map (·.1) = units := rfl

private theorem nodup_units : units.Nodup := by decide

/-- The amount of every unit is found among the pairs that are written. -/
theorem amount_shown (i : Interval) {c : String × Int64} (hc : c ∈ i.components) :
    amount i.shown c.1 = c.2 := by
  unfold shown
  split
  next hnone =>
    have hzero : c.2 = 0 := by simpa using List.filter_eq_nil_iff.mp hnone c hc
    rw [hzero]
    by_cases hm : c.1 = "milliseconds"
    · rw [hm]
      rfl
    · rw [amount_cons_of_ne hm]
      rfl
  next => exact @amount_filter i.components nodup_units c hc

/-- The amounts that are found among the pairs are those of the interval. -/
theorem ofAmounts_shown (i : Interval) : ofAmounts (units.map (amount i.shown)) = i := by
  have hamounts : units.map (amount i.shown) = i.components.map (·.2) := by
    rw [← i.units_eq, List.map_map]
    exact List.map_congr_left fun c hc => i.amount_shown hc
  rw [hamounts]
  rfl

/-- The units that are shown keep their order. -/
theorem shown_units (i : Interval) : (i.shown.map (·.1)).Sublist units := by
  unfold shown
  split
  next => decide
  next => exact List.filter_sublist.map _

/-! ## Words -/

/-- The words of pairs: amount and unit in turn. -/
def words (ps : List (String × Int64)) : List (List Char) :=
  ps.flatMap fun p => [(toString p.2.toInt).toList, p.1.toList]

/-- The words of pairs are read as the pairs. -/
theorem readPairs?_words (ps : List (String × Int64)) : readPairs? (words ps) = some ps := by
  induction ps with
  | nil => rfl
  | cons p ps ih =>
      show readPairs? ((toString p.2.toInt).toList :: p.1.toList :: words ps) = _
      rw [readPairs?, String.ofList_toList, ScalarType.signed?_toString, ih, String.ofList_toList]
      simp [Int64.ofInt_toInt]

private theorem toList_componentText (p : String × Int64) :
    (componentText p).toList = (toString p.2.toInt).toList ++ ' ' :: p.1.toList := by
  rw [componentText, String.toList_append, String.toList_append, List.append_assoc]
  rfl

/-- Components divided by spaces are their words divided by spaces. -/
theorem toList_components (ps : List (String × Int64)) :
    (" ".intercalate (ps.map componentText)).toList = [' '].intercalate (words ps) := by
  rw [String.toList_intercalate, List.map_map]
  show [' '].intercalate _ = _
  induction ps with
  | nil => rfl
  | cons p ps ih =>
      cases ps with
      | nil => simp [words, toList_componentText, List.intercalate]
      | cons q ps =>
          rw [List.map_cons, List.map_cons, List.intercalate_cons_cons, ← List.map_cons, ih]
          simp [words, toList_componentText, List.intercalate]

private theorem space_not_mem_unit {unit : String} (h : unit ∈ units) : ' ' ∉ unit.toList := by
  have hall : units.all fun u => !u.toList.contains ' ' := by decide
  simpa using List.all_eq_true.mp hall unit h

private theorem space_not_mem_int (n : Int) : ' ' ∉ (toString n).toList := by
  intro h
  rcases Readability.of_mem_int h with h | h
  · exact absurd h (by decide)
  · exact absurd h (by decide)

/-- Splitting the text of an interval at its spaces gives the words of the pairs. -/
theorem splitOn_text (i : Interval) : i.text.toList.splitOn ' ' = words i.shown := by
  have hne : words i.shown ≠ [] := by
    obtain ⟨p, ps, hps⟩ := List.exists_cons_of_ne_nil i.shown_ne_nil
    rw [hps]
    exact List.cons_ne_nil _ _
  rw [text_eq, toList_components]
  refine List.splitOn_intercalate ' ' (fun w hw => ?_) hne
  obtain ⟨p, hp, hw⟩ := List.mem_flatMap.mp hw
  have hunit : p.1 ∈ units := i.shown_units.subset (List.mem_map_of_mem hp)
  rcases List.mem_cons.mp hw with rfl | hw
  · exact space_not_mem_int _
  · rw [List.mem_singleton.mp hw]
    exact space_not_mem_unit hunit

/-- The text of an interval is read back. -/
theorem read?_text (i : Interval) : read? i.text = some i := by
  have hknown : (i.shown.map (·.1)).Nodup ∧ ∀ p ∈ i.shown, p.1 ∈ units :=
    ⟨i.shown_units.nodup nodup_units,
      fun p hp => i.shown_units.subset (List.mem_map_of_mem hp)⟩
  rw [read?, splitOn_text, readPairs?_words]
  show (if _ then _ else _) = _
  rw [if_pos hknown, ofAmounts_shown]

/-- Intervals with the same text are the same. -/
theorem text_injective {i j : Interval} (h : i.text = j.text) : i = j := by
  have hread := i.read?_text
  rw [h, j.read?_text] at hread
  exact (Option.some.inj hread).symm

end Calendar.Interval

/-- **Intervals are read off their literals.**  The literal of an interval is its text, cast to the
    type of intervals; reading the text as amounts and units gives the interval back, whatever its
    seven amounts are; and two intervals with the same literal are the same. -/
theorem Value.sql_interval_decodable (d : Dialect) (i j : Calendar.Interval) :
    (Value.interval i).literal d = .ok ⟨i.text, .typed "interval"⟩ ∧
      Calendar.Interval.read? i.text = some i ∧
      ((Value.interval i).sql d = (Value.interval j).sql d ↔ i = j) := by
  refine ⟨rfl, i.read?_text, (Value.sql_eq_sql_iff_of_typed rfl rfl).trans ⟨?_, ?_⟩⟩
  · exact Calendar.Interval.text_injective
  · intro h
    rw [h]

end SqlForms
