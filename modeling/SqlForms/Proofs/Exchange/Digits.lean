import SqlForms.Calendar.Date
import SqlForms.Proofs.Readability.Words

/-! # Runs of digits

    Everything numeric in an exchanged tree is a run of decimal digits at
    some point: the fields of a date, the parts of a double, the exponent
    after them.  A reader takes the longest run there is, or a run of a
    greatest width.  So a run is read as a whole when no digit comes after
    it, or when it already has that width; and what it denotes does not
    depend on the zeros in front of it. -/

namespace SqlForms

open Readability (Ends ends_nil ends_cons)

namespace Decimal

private theorem isDigit_iff {c : Char} : isDigit c = true ↔ 48 ≤ c.toNat ∧ c.toNat ≤ 57 := by
  simp only [isDigit, Bool.and_eq_true, decide_eq_true_eq, Char.le_def, UInt32.le_iff_toNat_le]
  exact Iff.rfl

/-- A digit is what the library takes for one. -/
theorem isDigit_eq (c : Char) : isDigit c = c.isDigit := by
  rw [Bool.eq_iff_iff, isDigit_iff, Char.isDigit_iff_toNat]
  exact Iff.rfl

/-- Whether a text consists of digits. -/
def IsRun (ds : List Char) : Prop :=
  ∀ c ∈ ds, isDigit c = true

/-- Whether a text does not go on with a digit. -/
def RunEnds (rest : List Char) : Prop :=
  Ends (fun c => !isDigit c) rest

theorem runEnds_nil : RunEnds [] :=
  ends_nil _

/-- A run ends before a character that is no digit. -/
theorem runEnds_cons {c : Char} {rest : List Char} : RunEnds (c :: rest) ↔ isDigit c = false := by
  rw [RunEnds, ends_cons, Bool.not_eq_true']

theorem isRun_nil : IsRun [] :=
  fun _ hc => by cases hc

theorem isRun_cons {c : Char} {ds : List Char} : IsRun (c :: ds) ↔ isDigit c = true ∧ IsRun ds :=
  List.forall_mem_cons

/-- Two runs one after the other are a run. -/
theorem isRun_append {as bs : List Char} : IsRun (as ++ bs) ↔ IsRun as ∧ IsRun bs :=
  List.forall_mem_append

/-- Zeros are a run. -/
theorem isRun_replicate_zero (n : Nat) : IsRun (List.replicate n '0') := by
  intro c hc
  rw [List.eq_of_mem_replicate hc]
  rfl

/-- The decimal digits of a number are a run. -/
theorem isRun_toDigits (n : Nat) : IsRun (Nat.toDigits 10 n) := by
  intro c hc
  rw [isDigit_eq]
  exact Nat.isDigit_of_mem_toDigits (by decide) (by decide) hc

/-! ## Where a run ends -/

/-- The longest run at the front is the run that was written. -/
theorem takeWhile_run {ds rest : List Char} (hd : IsRun ds) (hr : RunEnds rest) :
    (ds ++ rest).takeWhile isDigit = ds := by
  rw [List.takeWhile_append_of_pos hd]
  cases rest with
  | nil => simp
  | cons c rest =>
      simp [runEnds_cons.mp hr]

/-- What follows the longest run is what followed the run that was written. -/
theorem dropWhile_run {ds rest : List Char} (hd : IsRun ds) (hr : RunEnds rest) :
    (ds ++ rest).dropWhile isDigit = rest := by
  rw [List.dropWhile_append_of_pos hd]
  cases rest with
  | nil => rfl
  | cons c rest =>
      simp [runEnds_cons.mp hr]

/-! ## What a run denotes -/

private theorem ofDigits_eq (ds : List Char) : ofDigits ds = Nat.ofDigitChars 10 ds 0 :=
  rfl

/-- A run in front counts for as many places as the run after it has. -/
theorem ofDigits_append (as bs : List Char) :
    ofDigits (as ++ bs) = ofDigits as * Nat.pow 10 bs.length + ofDigits bs := by
  rw [ofDigits_eq, Nat.ofDigitChars_append, Nat.ofDigitChars_eq_ofDigitChars_zero, Nat.mul_comm]
  rfl

/-- The decimal digits of a number denote the number. -/
theorem ofDigits_toDigits (n : Nat) : ofDigits (Nat.toDigits 10 n) = n :=
  Nat.ofDigitChars_ten_toDigits

private theorem ofDigits_replicate_zero (n : Nat) : ofDigits (List.replicate n '0') = 0 := by
  rw [ofDigits_eq, Nat.ofDigitChars_replicate_zero]
  simp

/-- Zeros in front do not count. -/
theorem ofDigits_zeros_append (n : Nat) (ds : List Char) :
    ofDigits (List.replicate n '0' ++ ds) = ofDigits ds := by
  rw [ofDigits_append, ofDigits_replicate_zero, Nat.zero_mul, Nat.zero_add]

/-- Zeros at the end multiply by ten. -/
theorem ofDigits_append_zeros (ds : List Char) (n : Nat) :
    ofDigits (ds ++ List.replicate n '0') = ofDigits ds * Nat.pow 10 n := by
  rw [ofDigits_append, ofDigits_replicate_zero, List.length_replicate, Nat.add_zero]

end Decimal

/-! ## Numeric fields -/

namespace Calendar

open Decimal

/-- A field is a run. -/
theorem isRun_padded (width n : Nat) : IsRun (padded width n) :=
  isRun_append.mpr ⟨isRun_replicate_zero _, isRun_toDigits n⟩

/-- A field has a digit. -/
theorem padded_ne_nil (width n : Nat) : padded width n ≠ [] :=
  List.append_ne_nil_of_right_ne_nil _ Nat.toDigits_ne_nil

/-- A field denotes its number. -/
theorem ofDigits_padded (width n : Nat) : ofDigits (padded width n) = n := by
  rw [padded, ofDigits_zeros_append, ofDigits_toDigits]

/-- A number that fits a field has its full width. -/
theorem length_padded {width n : Nat} (hw : 0 < width) (h : n < Nat.pow 10 width) :
    (padded width n).length = width := by
  have hlen : (Nat.toDigits 10 n).length ≤ width :=
    (Nat.length_toDigits_le_iff (by decide) hw).mpr h
  rw [padded, List.length_append, List.length_replicate]
  omega

/-- No digit is blank. -/
theorem isBlank_eq_false_of_isDigit {c : Char} (h : isDigit c = true) : Text.isBlank c = false := by
  rw [isDigit_iff] at h
  rw [← Bool.not_eq_true]
  intro hb
  obtain ⟨r, hr, hle⟩ := Text.inRanges_iff.mp hb
  simp only [Text.blankRanges, List.mem_cons, List.not_mem_nil, or_false] at hr
  rcases hr with rfl | rfl | rfl | rfl | rfl | rfl | rfl | rfl | rfl | rfl <;> simp_all <;> omega

/-- There is nothing to skip before a character that is not blank. -/
theorem skipBlanks_cons {c : Char} (h : Text.isBlank c = false) (cs : List Char) :
    Text.skipBlanks (c :: cs) = c :: cs := by
  rw [Text.skipBlanks, List.dropWhile_cons_of_neg (by simp [h])]

/-- There is nothing to skip before a run. -/
theorem skipBlanks_run {ds : List Char} (hne : ds ≠ []) (hd : IsRun ds) (rest : List Char) :
    Text.skipBlanks (ds ++ rest) = ds ++ rest := by
  obtain ⟨c, ds, rfl⟩ := List.exists_cons_of_ne_nil hne
  exact skipBlanks_cons (isBlank_eq_false_of_isDigit (hd c List.mem_cons_self)) _

/-- A run of the greatest width, or a shorter one that no digit follows, is read as a whole. -/
theorem readDigits?_run {width : Nat} {ds rest : List Char} (hne : ds ≠ []) (hd : IsRun ds)
    (hw : ds.length ≤ width) (hr : ds.length = width ∨ RunEnds rest) :
    readDigits? width (ds ++ rest) = some (ofDigits ds, rest) := by
  have htake : ((ds ++ rest).take width).takeWhile isDigit = ds := by
    rw [List.take_append, List.take_of_length_le hw]
    refine takeWhile_run hd ?_
    rcases hr with rfl | hr
    · rw [Nat.sub_self]
      exact runEnds_nil
    · intro c hc
      refine hr c ?_
      rcases Nat.eq_zero_or_pos (width - ds.length) with h0 | hpos
      · simp [h0] at hc
      · rwa [List.head?_take, if_neg (by omega)] at hc
  obtain ⟨c, ds, rfl⟩ := List.exists_cons_of_ne_nil hne
  simp only [readDigits?, htake]
  rw [List.drop_left]

/-- A number of no more digits than the field has is read back whatever follows. -/
theorem readField?_padded {width n : Nat} (hw : 0 < width) (h : n < Nat.pow 10 width)
    (rest : List Char) : readField? width (padded width n ++ rest) = some (n, rest) := by
  have hlen := length_padded hw h
  rw [readField?, skipBlanks_run (padded_ne_nil width n) (isRun_padded width n),
    readDigits?_run (padded_ne_nil width n) (isRun_padded width n) (Nat.le_of_eq hlen) (.inl hlen),
    ofDigits_padded]

/-- A mark is read where it stands. -/
theorem readMark?_cons (mark : Char) (h : Text.isBlank mark = false) (rest : List Char) :
    readMark? mark (mark :: rest) = some rest := by
  simp only [readMark?, skipBlanks_cons h, if_pos]

end Calendar
end SqlForms
