import SqlForms.Calendar.Time
import SqlForms.Proofs.Exchange.Digits

/-! # Dates and times read back

    The exact texts of dates, times and timestamps are read back as what
    they were written from, over the whole range of years and with leap
    seconds after second 59.  Every field but a signed year has its full
    width, so nothing that follows can be taken for part of it; a signed
    year ends at the hyphen after it.

    A leap second after another second has the text of the second that
    follows, and is read as that (`settle`). -/

namespace SqlForms.Calendar

open Decimal

/-! ## Dates -/

namespace Date

private theorem daysInMonth_le (year : Int) (month : Nat) : daysInMonth year month ≤ 31 := by
  unfold daysInMonth
  split
  case h_2 => split <;> decide
  all_goals decide

private theorem daysInMonth_of_gt (year : Int) {month : Nat} (h : 12 < month) :
    daysInMonth year month = 0 := by
  unfold daysInMonth
  split
  case h_13 => rfl
  all_goals omega

/-- The month of a date has two digits. -/
theorem month_lt (d : Date) : d.month < 13 := by
  refine Nat.lt_of_not_le fun h => ?_
  have hpos := Nat.le_trans d.day_pos d.day_le
  rw [daysInMonth_of_gt d.year h] at hpos
  cases hpos

/-- So has the day. -/
theorem day_lt (d : Date) : d.day < 32 :=
  Nat.lt_succ_of_le (Nat.le_trans d.day_le (daysInMonth_le d.year d.month))

/-- A signed run of digits is a year of any length. -/
theorem readYear?_signed {c : Char} {n : Nat} {rest : List Char} (hc : c = '-' ∨ c = '+')
    (hr : RunEnds rest) :
    readYear? (c :: padded 4 n ++ rest) = some (if c = '-' then -(n : Int) else n, rest) := by
  have hread : readDigits? (padded 4 n ++ rest).length (padded 4 n ++ rest) = some (n, rest) := by
    rw [readDigits?_run (padded_ne_nil 4 n) (isRun_padded 4 n) (by simp) (.inr hr), ofDigits_padded]
  rcases hc with rfl | rfl
  · simp only [readYear?, List.cons_append, skipBlanks_cons (c := '-') (by decide), hread]
    rfl
  · simp only [readYear?, List.cons_append, skipBlanks_cons (c := '+') (by decide), hread]
    rfl

/-- Four digits are a year, whatever follows them. -/
theorem readYear?_unsigned {n : Nat} (h : n < 10000) (rest : List Char) :
    readYear? (padded 4 n ++ rest) = some ((n : Int), rest) := by
  have hlen : (padded 4 n).length = 4 := length_padded (by decide) h
  have hread : readDigits? 4 (padded 4 n ++ rest) = some (n, rest) := by
    rw [readDigits?_run (padded_ne_nil 4 n) (isRun_padded 4 n) (Nat.le_of_eq hlen) (.inl hlen),
      ofDigits_padded]
  obtain ⟨c, ds, hcs⟩ := List.exists_cons_of_ne_nil (padded_ne_nil 4 n)
  have hc : isDigit c = true := isRun_padded 4 n c (by simp [hcs])
  rw [readYear?, skipBlanks_run (padded_ne_nil 4 n) (isRun_padded 4 n)]
  -- The first character is a digit, so it is neither of the signs.
  split
  next h' =>
    rw [hcs] at h'
    cases h'
    exact absurd hc (by decide)
  next h' =>
    rw [hcs] at h'
    cases h'
    exact absurd hc (by decide)
  next => rw [hread, Option.map_some]

/-- The text of a year is read as the year, as long as no digit follows it. -/
theorem readYear?_yearText (year : Int) (rest : List Char) (hr : RunEnds rest) :
    readYear? (yearText year ++ rest) = some (year, rest) := by
  unfold yearText
  split
  next h =>
    rw [readYear?_unsigned (by omega)]
    simp only [Option.some.injEq, Prod.mk.injEq, and_true]
    omega
  next h =>
    by_cases hneg : year < 0
    · rw [if_pos hneg, readYear?_signed (.inl rfl) hr, if_pos rfl]
      simp only [Option.some.injEq, Prod.mk.injEq, and_true]
      omega
    · rw [if_neg hneg, readYear?_signed (.inr rfl) hr, if_neg (by decide)]
      simp only [Option.some.injEq, Prod.mk.injEq, and_true]
      omega

private theorem ofFields?_fields (d : Date) : ofFields? d.year d.month d.day = some d := by
  rw [ofFields?, dif_pos ⟨⟨d.year_ge, d.year_le⟩, d.day_pos, d.day_le⟩]

/-- A date at the front of a text is read back, whatever follows it. -/
theorem scan?_chars (d : Date) (rest : List Char) : scan? (d.chars ++ rest) = some (d, rest) := by
  have hmonth : d.month < Nat.pow 10 2 := Nat.lt_trans d.month_lt (by decide)
  have hday : d.day < Nat.pow 10 2 := Nat.lt_trans d.day_lt (by decide)
  have hmark : Text.isBlank '-' = false := by decide
  have hyear := readYear?_yearText d.year
    ('-' :: (padded 2 d.month ++ '-' :: (padded 2 d.day ++ rest)))
    (runEnds_cons.mpr (by decide))
  simp only [scan?, chars, List.append_assoc, List.cons_append, hyear, readMark?_cons '-' hmark,
    readField?_padded (by decide : 0 < 2) hmonth, readField?_padded (by decide : 0 < 2) hday,
    ofFields?_fields, bind, Option.bind, pure]

/-- The text of a date is read as the date. -/
theorem read?_text (d : Date) : read? d.text = some d := by
  have hscan := scan?_chars d []
  rw [List.append_nil] at hscan
  rw [read?, text, String.toList_ofList, hscan]
  rfl

end Date

/-! ## Times -/

namespace Time

/-- A second that is written is at most the sixtieth. -/
theorem shownSecond_le (t : Time) : t.shownSecond ≤ 60 := by
  have hs := t.second_lt
  have hn := t.nanosecond_lt
  unfold shownSecond
  omega

/-- Whether a leap second comes after second 59 only. -/
def isSettled (t : Time) : Bool :=
  decide (1000000000 ≤ t.nanosecond → t.second = 59)

/-- The time with the same text whose leap second, if it has one, comes after second 59. -/
def settle (t : Time) : Time :=
  if h : 1000000000 ≤ t.nanosecond ∧ t.second < 59 then
    { t with
      second := t.second + 1
      nanosecond := t.nanosecond - 1000000000
      second_lt := Nat.succ_lt_succ h.2
      nanosecond_lt := Nat.lt_of_le_of_lt (Nat.sub_le _ _) t.nanosecond_lt }
  else t

/-- A time is settled when settling leaves it as it is. -/
theorem settle_eq_self_iff {t : Time} : t.settle = t ↔ t.isSettled = true := by
  have hs := t.second_lt
  rw [isSettled, decide_eq_true_iff]
  unfold settle
  split
  next h =>
    -- A time that is moved has another second.
    constructor
    · intro heq
      have hsecond : t.second + 1 = t.second := congrArg Time.second heq
      omega
    · intro hleap
      have hsecond := hleap h.1
      omega
  next h =>
    refine ⟨fun _ hleap => ?_, fun _ => rfl⟩
    omega

/-- The same is written of a time and of the settled time. -/
theorem shown_settle (t : Time) :
    t.settle.hour = t.hour ∧ t.settle.minute = t.minute ∧
      t.settle.shownSecond = t.shownSecond ∧ t.settle.shownNanosecond = t.shownNanosecond := by
  unfold settle
  split
  next h =>
    have hlt := t.nanosecond_lt
    refine ⟨rfl, rfl, ?_, ?_⟩
    · show t.second + 1 + (t.nanosecond - 1000000000) / 1000000000 = _
      unfold shownSecond
      omega
    · show (t.nanosecond - 1000000000) % 1000000000 = _
      unfold shownNanosecond
      omega
  next => exact ⟨rfl, rfl, rfl, rfl⟩

/-- The second and the nanosecond that are written determine the settled time. -/
theorem ofRead?_shown (t : Time) :
    ofRead? t.hour t.minute t.shownSecond t.shownNanosecond = some t.settle := by
  have hs := t.second_lt
  have hn := t.nanosecond_lt
  have hh := t.hour_lt
  have hm := t.minute_lt
  unfold ofRead? ofFields? shownSecond shownNanosecond settle
  -- The second that is written is 60 only in a leap second after second 59.
  by_cases hleap : 1000000000 ≤ t.nanosecond
  · have hnano : t.nanosecond % 1000000000 = t.nanosecond - 1000000000 := by omega
    have hsecond : t.nanosecond / 1000000000 = 1 := by omega
    rw [hnano, hsecond]
    by_cases hlast : t.second = 59
    · rw [if_pos (by omega), dif_pos (by omega), dif_neg (by omega)]
      simp only [Nat.sub_add_cancel hleap, ← hlast]
    · rw [if_neg (by omega), dif_pos (by omega), dif_pos (by omega)]
  · have hnano : t.nanosecond % 1000000000 = t.nanosecond := by omega
    have hsecond : t.nanosecond / 1000000000 = 0 := by omega
    rw [hnano, hsecond, Nat.add_zero, if_neg (by omega), dif_pos (by omega), dif_neg (by omega)]

/-- The fraction is missing for a whole second, and otherwise a point and at most nine digits that
    give the nanoseconds once they are filled up to nine. -/
theorem fractionChars_cases (t : Time) :
    (t.fractionChars = [] ∧ t.shownNanosecond = 0) ∨
      ∃ ds, t.fractionChars = '.' :: ds ∧ ds ≠ [] ∧ IsRun ds ∧ ds.length ≤ 9 ∧
        ofDigits ds * Nat.pow 10 (9 - ds.length) = t.shownNanosecond := by
  have hlt : t.shownNanosecond < 1000000000 := Nat.mod_lt _ (by decide)
  unfold fractionChars
  generalize t.shownNanosecond = n at hlt ⊢
  -- One case for each number of digits: `k` is what dividing drops.
  have written : ∀ w k, 0 < w → w + k = 9 → n % Nat.pow 10 k = 0 →
      ∃ ds, '.' :: padded w (n / Nat.pow 10 k) = '.' :: ds ∧ ds ≠ [] ∧ IsRun ds ∧ ds.length ≤ 9 ∧
        ofDigits ds * Nat.pow 10 (9 - ds.length) = n := by
    intro w k hw hk hdvd
    have hpow : Nat.pow 10 w * Nat.pow 10 k = 1000000000 := by
      rw [show Nat.pow 10 w * Nat.pow 10 k = Nat.pow 10 (w + k) from (Nat.pow_add 10 w k).symm, hk]
    have hlen : (padded w (n / Nat.pow 10 k)).length = w :=
      length_padded hw (Nat.div_lt_of_lt_mul (by rw [Nat.mul_comm, hpow]; exact hlt))
    refine ⟨_, rfl, padded_ne_nil _ _, isRun_padded _ _, by omega, ?_⟩
    rw [ofDigits_padded, hlen, show 9 - w = k by omega]
    exact Nat.div_mul_cancel (Nat.dvd_of_mod_eq_zero hdvd)
  by_cases h0 : n = 0
  · exact .inl (by simp [h0])
  · rw [if_neg h0]
    refine .inr ?_
    by_cases h6 : n % 1000000 = 0
    · rw [if_pos h6]
      exact written 3 6 (by decide) rfl h6
    · rw [if_neg h6]
      by_cases h3 : n % 1000 = 0
      · rw [if_pos h3]
        exact written 6 3 (by decide) rfl h3
      · rw [if_neg h3]
        simpa using written 9 0 (by decide) rfl (Nat.mod_one n)

/-- A fraction of at most nine digits gives nanoseconds. -/
theorem scanFraction?_run {ds : List Char} (hne : ds ≠ []) (hd : IsRun ds) (hlen : ds.length ≤ 9) :
    scanFraction? ds = some (ofDigits ds * Nat.pow 10 (9 - ds.length), []) := by
  have htake := takeWhile_run hd runEnds_nil
  have hdrop := dropWhile_run hd runEnds_nil
  rw [List.append_nil] at htake hdrop
  simp only [scanFraction?, htake, hdrop, if_neg hne, List.take_of_length_le hlen]

/-- The second and its fraction are read as they were written. -/
theorem scanSecond?_chars (t : Time) :
    scanSecond? (':' :: (padded 2 t.shownSecond ++ t.fractionChars)) =
      some (t.shownSecond, t.shownNanosecond, []) := by
  have hsecond := t.shownSecond_le
  have hfield : t.shownSecond < Nat.pow 10 2 := Nat.lt_of_le_of_lt hsecond (by decide)
  simp only [scanSecond?, readMark?_cons ':' (by decide),
    readField?_padded (by decide : 0 < 2) hfield, if_neg (Nat.not_lt.mpr hsecond), bind,
    Option.bind, pure]
  rcases t.fractionChars_cases with ⟨hfrac, hzero⟩ | ⟨ds, hfrac, hne, hd, hlen, hvalue⟩
  · rw [hfrac, hzero]
    rfl
  · simp only [hfrac, scanFraction?_run hne hd hlen, hvalue]
    rfl

/-- Hour and minute are read as they were written. -/
theorem scanMinute?_chars (t : Time) :
    scanMinute? t.chars =
      some (t.hour, t.minute, ':' :: (padded 2 t.shownSecond ++ t.fractionChars)) := by
  have hhour : t.hour < Nat.pow 10 2 := Nat.lt_trans t.hour_lt (by decide)
  have hminute : t.minute < Nat.pow 10 2 := Nat.lt_trans t.minute_lt (by decide)
  simp only [scanMinute?, chars, clockChars, List.append_assoc, List.cons_append,
    readMark?_cons ':' (by decide), readField?_padded (by decide : 0 < 2) hhour,
    readField?_padded (by decide : 0 < 2) hminute, bind, Option.bind, pure]

/-- The exact text of a time is read back as the settled time. -/
theorem scan?_chars (t : Time) : scan? t.chars = some (t.settle, []) := by
  simp only [scan?, scanMinute?_chars, scanSecond?_chars, ofRead?_shown, bind, Option.bind, pure]

/-- So it is where the text holds nothing else. -/
theorem read?_text (t : Time) : read? t.text = some t.settle := by
  rw [read?, text, String.toList_ofList, scanMinute?_chars]
  show (if Text.skipBlanks ((scanSecond? _).getD _).2.2 ≠ [] then none else _) = _
  rw [scanSecond?_chars]
  exact t.ofRead?_shown

end Time

/-! ## Timestamps -/

/-- The timestamp with its time settled. -/
def Timestamp.settle (t : Timestamp) : Timestamp :=
  { t with time := t.time.settle }

/-- A timestamp is left as it is when its time is. -/
theorem Timestamp.settle_eq_self_iff {t : Timestamp} :
    t.settle = t ↔ t.time.isSettled = true := by
  rw [← Time.settle_eq_self_iff]
  constructor
  · intro h
    exact congrArg Timestamp.time h
  · intro h
    rw [settle, h]

/-- The text of a timestamp is read back as the settled timestamp. -/
theorem Timestamp.read?_text (t : Timestamp) : read? t.text = some t.settle := by
  simp only [read?, text, String.toList_ofList, Date.scan?_chars, readMark?_cons 'T' (by decide),
    Time.scan?_chars, bind, Option.bind]
  rfl

end SqlForms.Calendar
