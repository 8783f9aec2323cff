import SqlForms.Proofs.Exchange.Calendar
import SqlForms.Proofs.Values.Shapes

/-! # Times and timestamps, to the millisecond

    A literal drops what is below the millisecond and nothing else.  Its text
    is the exact text of the time cut to the millisecond (`sqlChars_eq`), a
    leap second still being one; and exact texts are read back, up to where
    a leap second is kept (`chars_inj`).  So two times have the same literal
    when they agree once they are cut and settled, which is when a clock
    shows the same for both (`settle_truncate_eq_iff`).

    A timestamp has its date before the time.  The date is read off the front
    of the text whatever its year is, and the time is what is left. -/

namespace SqlForms

namespace Calendar

namespace Time

/-- The second as a clock shows it: in a leap second the one after, so 60 after second 59. -/
def clockSecond (t : Time) : Nat :=
  if 1000000000 ≤ t.nanosecond then t.second + 1 else t.second

/-- The millisecond within the second that a clock shows. -/
def millisecond (t : Time) : Nat :=
  t.shownNanosecond / 1000000

/-- Whether a clock with milliseconds shows the same for two times. -/
structure SameMillisecond (t u : Time) : Prop where
  hour : t.hour = u.hour
  minute : t.minute = u.minute
  second : t.clockSecond = u.clockSecond
  millisecond : t.millisecond = u.millisecond

/-- The time with nothing below the millisecond. -/
def truncate (t : Time) : Time where
  hour := t.hour
  minute := t.minute
  second := t.second
  nanosecond := t.nanosecond / 1000000 * 1000000
  hour_lt := t.hour_lt
  minute_lt := t.minute_lt
  second_lt := t.second_lt
  nanosecond_lt := Nat.lt_of_le_of_lt (Nat.div_mul_le_self _ _) t.nanosecond_lt

/-! ## What is written -/

/-- A clock shows the second that is written. -/
theorem clockSecond_eq (t : Time) : t.clockSecond = t.shownSecond := by
  have hlt := t.nanosecond_lt
  unfold clockSecond shownSecond
  split <;> omega

/-- Settled times are the same exactly when the same is written of both. -/
theorem settle_eq_iff {t u : Time} :
    t.settle = u.settle ↔ t.hour = u.hour ∧ t.minute = u.minute ∧
      t.shownSecond = u.shownSecond ∧ t.shownNanosecond = u.shownNanosecond := by
  constructor
  · intro h
    obtain ⟨hhour, hminute, hsecond, hnano⟩ := t.shown_settle
    rw [← hhour, ← hminute, ← hsecond, ← hnano, h]
    exact u.shown_settle
  · rintro ⟨hhour, hminute, hsecond, hnano⟩
    have hread := t.ofRead?_shown
    rw [hhour, hminute, hsecond, hnano, u.ofRead?_shown] at hread
    exact (Option.some.inj hread).symm

/-- Exact texts are the same when the times are the same once they are settled. -/
theorem chars_inj {t u : Time} : t.chars = u.chars ↔ t.settle = u.settle := by
  constructor
  · intro h
    have hread := t.scan?_chars
    rw [h, u.scan?_chars] at hread
    exact (congrArg Prod.fst (Option.some.inj hread)).symm
  · intro h
    obtain ⟨hhour, hminute, hsecond, hnano⟩ := settle_eq_iff.mp h
    rw [chars, chars, clockChars, clockChars, fractionChars, fractionChars, hhour, hminute, hsecond,
      hnano]

/-! ## Cutting to the millisecond -/

/-- Cutting a time leaves the second that is written. -/
theorem shownSecond_truncate (t : Time) : t.truncate.shownSecond = t.shownSecond := by
  show t.second + t.nanosecond / 1000000 * 1000000 / 1000000000 =
    t.second + t.nanosecond / 1000000000
  omega

/-- Cutting a time leaves whole milliseconds of the second that is written. -/
theorem shownNanosecond_truncate (t : Time) :
    t.truncate.shownNanosecond = t.nanosecond / 1000000 % 1000 * 1000000 := by
  show t.nanosecond / 1000000 * 1000000 % 1000000000 = _
  omega

/-- The fraction of a time that is cut has three digits or none. -/
theorem fractionChars_truncate (t : Time) : t.truncate.fractionChars = t.millisecondChars := by
  rw [fractionChars, millisecondChars, shownNanosecond_truncate]
  generalize t.nanosecond / 1000000 % 1000 = millis
  by_cases hzero : millis = 0
  · rw [if_pos hzero, hzero]
    rfl
  · have hne : millis * 1000000 ≠ 0 := by omega
    rw [if_neg hzero, if_neg hne, if_pos (Nat.mul_mod_left millis 1000000),
      Nat.mul_div_cancel millis (by decide)]

/-- In a literal a time is written as the exact text of the time cut to the millisecond. -/
theorem sqlChars_eq (t : Time) : t.sqlChars = t.truncate.chars := by
  rw [sqlChars, chars, clockChars, clockChars, shownSecond_truncate, fractionChars_truncate]
  rfl

/-- Two times agree once they are cut to the millisecond and settled exactly when a clock shows the
    same for both. -/
theorem settle_truncate_eq_iff {t u : Time} :
    t.truncate.settle = u.truncate.settle ↔ t.SameMillisecond u := by
  have hmilli : ∀ v : Time, v.nanosecond / 1000000 % 1000 = v.millisecond := by
    intro v
    show v.nanosecond / 1000000 % 1000 = v.nanosecond % 1000000000 / 1000000
    omega
  rw [settle_eq_iff, shownSecond_truncate, shownSecond_truncate, shownNanosecond_truncate,
    shownNanosecond_truncate, hmilli, hmilli, Nat.mul_right_cancel_iff (by decide),
    ← clockSecond_eq, ← clockSecond_eq]
  constructor
  · rintro ⟨hhour, hminute, hsecond, hmillis⟩
    exact ⟨hhour, hminute, hsecond, hmillis⟩
  · rintro ⟨hhour, hminute, hsecond, hmillis⟩
    exact ⟨hhour, hminute, hsecond, hmillis⟩

/-- Literals of times have the same text when a clock shows the same for both. -/
theorem sqlChars_inj {t u : Time} : t.sqlChars = u.sqlChars ↔ t.SameMillisecond u := by
  rw [sqlChars_eq, sqlChars_eq, chars_inj, settle_truncate_eq_iff]

private theorem sqlText_inj {t u : Time} :
    String.ofList t.sqlChars = String.ofList u.sqlChars ↔ t.SameMillisecond u := by
  rw [String.ofList_inj, sqlChars_inj]

end Time

/-- Literals of timestamps have the same text when their dates are the same and those of their
    times have. -/
theorem Timestamp.sqlChars_inj {t u : Timestamp} :
    t.sqlChars = u.sqlChars ↔ t.date = u.date ∧ t.time.sqlChars = u.time.sqlChars := by
  constructor
  · intro h
    have hread := t.date.scan?_chars (' ' :: t.time.sqlChars)
    have hread' := u.date.scan?_chars (' ' :: u.time.sqlChars)
    rw [show t.date.chars ++ ' ' :: t.time.sqlChars = u.date.chars ++ ' ' :: u.time.sqlChars from h,
      hread'] at hread
    obtain ⟨hdate, hrest⟩ := Prod.ext_iff.mp (Option.some.inj hread)
    exact ⟨hdate.symm, (List.cons.inj hrest).2.symm⟩
  · rintro ⟨hdate, htime⟩
    rw [sqlChars, sqlChars, hdate, htime]

private theorem Timestamp.sqlText_inj {t u : Timestamp} :
    String.ofList t.sqlChars = String.ofList u.sqlChars ↔
      t.date = u.date ∧ t.time.SameMillisecond u.time := by
  rw [String.ofList_inj, Timestamp.sqlChars_inj, Time.sqlChars_inj]

end Calendar

open Calendar

/-- **Literals of times and timestamps tell the millisecond.**  A time has a text, and two times
    have the same text exactly when a clock with milliseconds shows the same for both, a leap second
    as the second that follows; the texts of two timestamps are the same when moreover their dates
    are.  The same holds of the whole literals. -/
theorem Value.text_eq_iff_sameMillisecond (d : Dialect) :
    (∀ t u : Time, ∃ s s',
      (Value.time t).literal d = .ok ⟨s, .typed "time"⟩ ∧
        (Value.time u).literal d = .ok ⟨s', .typed "time"⟩ ∧
        (s = s' ↔ t.SameMillisecond u) ∧
        ((Value.time t).sql d = (Value.time u).sql d ↔ t.SameMillisecond u)) ∧
    ∀ t u : Timestamp, ∃ s s',
      (Value.timestamp t).literal d = .ok ⟨s, .typed "timestamp"⟩ ∧
        (Value.timestamp u).literal d = .ok ⟨s', .typed "timestamp"⟩ ∧
        (s = s' ↔ t.date = u.date ∧ t.time.SameMillisecond u.time) ∧
        ((Value.timestamp t).sql d = (Value.timestamp u).sql d ↔
          t.date = u.date ∧ t.time.SameMillisecond u.time) := by
  constructor
  · intro t u
    refine ⟨_, _, rfl, rfl, Time.sqlText_inj, ?_⟩
    exact (Value.sql_eq_sql_iff_of_typed rfl rfl).trans Time.sqlText_inj
  · intro t u
    refine ⟨_, _, rfl, rfl, Timestamp.sqlText_inj, ?_⟩
    exact (Value.sql_eq_sql_iff_of_typed rfl rfl).trans Timestamp.sqlText_inj

end SqlForms
