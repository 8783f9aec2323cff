import Mathlib.Data.List.Forall2
import SqlForms.Name

/-! # What a name is written as

    A name can be any text, and is lower-cased as a whole before it is cut
    at its dots.  Still each piece of the identifier belongs to a segment of
    the name: lower-casing leaves dots and stars where they are, makes no new
    ones, and lets no character vanish (`keeps_lowerChar`), so the segments
    before and after it go together one by one (`matches_lowerAfter`).  A
    piece is then the star, for a star, or a run of letters, numerals and
    underscores, which cannot end a quoted name or start anything else. -/

namespace SqlForms

namespace Text

/-! ## Lower-casing and marks -/

/-- Whether a character is a mark of a name: a dot or a star. -/
def isMark (c : Char) : Bool :=
  c == '.' || c == '*'

/-- Whether the image of a character keeps marks: a mark is its own image, and the image of anything
    else is something without marks. -/
structure Keeps (c : Char) (image : List Char) : Prop where
  ne_nil : image ≠ []
  mark : isMark c = true → image = [c]
  plain : isMark c = false → ∀ x ∈ image, isMark x = false

/-- A character that is left as it is keeps marks. -/
theorem Keeps.refl (c : Char) : Keeps c [c] := by
  refine ⟨List.cons_ne_nil _ _, fun _ => rfl, fun hc x hx => ?_⟩
  rw [List.mem_singleton.mp hx]
  exact hc

/-- What has no marks keeps them for a character that is none. -/
theorem Keeps.of_plain {c : Char} {image : List Char} (hc : isMark c = false) (hne : image ≠ [])
    (h : ∀ x ∈ image, isMark x = false) : Keeps c image := by
  refine ⟨hne, fun hmark => ?_, fun _ => h⟩
  rw [hc] at hmark
  cases hmark

/-- Code points after those of the marks are no marks, and neither is one that does not exist. -/
theorem isMark_ofNat {n : Nat} (h : 46 < n) : isMark (Char.ofNat n) = false := by
  have hne : ∀ m : Char, 0 < m.toNat → m.toNat ≤ 46 → Char.ofNat n ≠ m := by
    rintro m hpos hle rfl
    by_cases hvalid : n.isValidChar
    · have hcode : (Char.ofNat n).toNat = n := congrArg Char.toNat (dif_pos hvalid)
      omega
    -- A number that is no code point gives the character zero.
    · have hzero : (Char.ofNat n).toNat = 0 := congrArg Char.toNat (dif_neg hvalid)
      omega
  have hdot := hne '.' (by decide) (by decide)
  have hstar := hne '*' (by decide) (by decide)
  simp [isMark, hdot, hstar]

/-- The capitals that are moved to small letters are no marks, and small letters are none. -/
theorem isMark_lower {r : CapitalRun} (hr : r ∈ capitalRuns) {n : Nat} (h : r.holds n) :
    46 < n ∧ isMark (r.lower n) = false := by
  have hruns : capitalRuns.all fun r => decide (46 < r.first ∧ 46 < r.first + r.offset) := by
    decide
  have hfirst := of_decide_eq_true (List.all_eq_true.mp hruns r hr)
  simp only [CapitalRun.holds, Bool.and_eq_true, decide_eq_true_eq] at h
  exact ⟨by omega, isMark_ofNat (by omega)⟩

/-- Apart from its neighbours, a character is lower-cased to something that keeps marks. -/
theorem keeps_lowerChar (c : Char) : Keeps c (lowerChar c) := by
  rw [lowerChar]
  split
  next hc =>
    rw [hc]
    exact .of_plain (by decide) (by decide) (List.forall_iff_forall_mem.mp (by decide))
  next =>
    split
    next r hr =>
      have hholds : r.holds c.toNat :=
        List.find?_some (p := fun r : CapitalRun => r.holds c.toNat) hr
      obtain ⟨hc, hlower⟩ := isMark_lower (List.mem_of_find?_eq_some hr) hholds
      have hplain := isMark_ofNat hc
      rw [Char.ofNat_toNat] at hplain
      refine .of_plain hplain (List.cons_ne_nil _ _) fun x hx => ?_
      rw [List.mem_singleton.mp hx]
      exact hlower
    next => exact .refl c

/-- One step of lower-casing keeps marks, whatever stands before and after the character. -/
theorem lowerAfter_cons (before : List Char) (c : Char) (cs : List Char) :
    ∃ image, Keeps c image ∧
      lowerAfter before (c :: cs) = image ++ lowerAfter (c :: before) cs := by
  refine ⟨_, ?_, by rw [lowerAfter]⟩
  split
  next hc =>
    rw [hc]
    split
    · exact .of_plain (by decide) (by decide) (List.forall_iff_forall_mem.mp (by decide))
    · exact .of_plain (by decide) (by decide) (List.forall_iff_forall_mem.mp (by decide))
  next => exact keeps_lowerChar c

end Text

namespace Name

open Text

/-! ## Segments -/

/-- There is always a segment. -/
theorem segments_ne_nil (cs : List Char) : segments cs ≠ [] := by
  cases cs with
  | nil => exact List.cons_ne_nil _ _
  | cons c cs =>
      rw [segments]
      split
      · exact List.cons_ne_nil _ _
      · split <;> exact List.cons_ne_nil _ _

/-- A character that is no dot goes to the first segment. -/
theorem segments_cons_of_ne {c : Char} (h : c ≠ '.') (cs : List Char) :
    segments (c :: cs) = (segments cs).modifyHead (c :: ·) := by
  rw [segments, if_neg h]
  split
  next hnil => exact absurd hnil (segments_ne_nil cs)
  next s ss hs => rw [hs]; rfl

/-- What has no dot goes to the first segment. -/
theorem segments_append_of_not_mem {image : List Char} (h : '.' ∉ image) (cs : List Char) :
    segments (image ++ cs) = (segments cs).modifyHead (image ++ ·) := by
  induction image with
  | nil => cases hs : segments cs <;> simp [hs]
  | cons c image ih =>
      rw [List.cons_append, segments_cons_of_ne fun hc => h (hc ▸ List.mem_cons_self),
        ih fun hm => h (List.mem_cons_of_mem _ hm), List.modifyHead_modifyHead]
      rfl

/-- The segments are what stands between the dots. -/
theorem segments_eq_splitOn (cs : List Char) : segments cs = cs.splitOn '.' := by
  induction cs with
  | nil => rfl
  | cons c cs ih =>
      rw [List.splitOn, List.splitOnP_cons_eq_if_modifyHead, ← List.splitOn, ← ih]
      by_cases hc : c = '.'
      · rw [segments, if_pos hc, if_pos (beq_iff_eq.mpr hc)]
      · rw [segments_cons_of_ne hc, if_neg fun h => hc (beq_iff_eq.mp h)]

/-- There is one segment more than there are dots. -/
theorem length_segments (cs : List Char) : (segments cs).length = cs.count '.' + 1 := by
  induction cs with
  | nil => rfl
  | cons c cs ih =>
      by_cases hc : c = '.'
      · rw [segments, if_pos hc, List.length_cons, ih, hc, List.count_cons_self]
      · rw [segments_cons_of_ne hc, List.length_modifyHead, ih, List.count_cons_of_ne hc]

/-- Two segments that are both empty or not, and both a star or not. -/
structure Matches (s s' : List Char) : Prop where
  nil : s = [] ↔ s' = []
  star : s = ['*'] ↔ s' = ['*']

/-- A character and its image in front of segments that match. -/
theorem Matches.cons {c : Char} {image s s' : List Char} (hc : c ≠ '.') (h : Keeps c image)
    (hs : Matches s s') : Matches (c :: s) (image ++ s') := by
  obtain ⟨x, xs, rfl⟩ := List.exists_cons_of_ne_nil h.ne_nil
  refine ⟨by simp, ?_⟩
  cases hmark : isMark c with
  | true =>
      -- Of the two marks only the star is left, and its image is a star alone.
      have hstar : c = '*' := by simpa [isMark, hc] using hmark
      obtain ⟨rfl, rfl⟩ := List.cons.inj (h.mark hmark)
      simpa [hstar] using hs.nil
  | false =>
      have hne : c ≠ '*' := by
        rintro rfl
        cases hmark
      have hx : x ≠ '*' := by
        rintro rfl
        have hx := h.plain hmark '*' List.mem_cons_self
        cases hx
      simp [hne, hx]

/-- The segments of a name go together with those of its lower-case form. -/
theorem matches_lowerAfter (before cs : List Char) :
    List.Forall₂ Matches (segments cs) (segments (lowerAfter before cs)) := by
  induction cs generalizing before with
  | nil => exact .cons ⟨Iff.rfl, Iff.rfl⟩ .nil
  | cons c cs ih =>
      obtain ⟨image, hkeeps, hlower⟩ := lowerAfter_cons before c cs
      rw [hlower]
      -- A dot is its own image and cuts on both sides; anything else, with the whole of its image,
      -- goes to the first segment.
      by_cases hc : c = '.'
      · rw [hkeeps.mark (by rw [hc]; rfl), List.singleton_append, segments, segments, if_pos hc,
          if_pos hc]
        exact .cons ⟨Iff.rfl, Iff.rfl⟩ (ih (c :: before))
      · have hdot : '.' ∉ image := by
          intro hmem
          cases hmark : isMark c with
          | true => exact hc (List.mem_singleton.mp (hkeeps.mark hmark ▸ hmem)).symm
          | false =>
              have hdot := hkeeps.plain hmark '.' hmem
              cases hdot
        rw [segments_cons_of_ne hc, segments_append_of_not_mem hdot]
        have ih := ih (c :: before)
        generalize segments cs = ss, segments (lowerAfter (c :: before) cs) = ss' at ih ⊢
        cases ih with
        | nil => exact .nil
        | cons hs hrest => exact .cons (hs.cons hc hkeeps) hrest

/-! ## Pieces -/

/-- A text in double quotes, if asked for. -/
def wrapped (quote : Bool) (cs : List Char) : List Char :=
  if quote then '"' :: cs ++ ['"'] else cs

/-- What may stand for a segment: the star for a star, and for anything else a run of letters,
    numerals and underscores, in double quotes if asked for. -/
inductive Piece (quote : Bool) : List Char → List Char → Prop where
  | star : Piece quote ['*'] ['*']
  | run {segment run : List Char} : segment ≠ ['*'] →
      (∀ c ∈ run, isAlphabetic c ∨ isNumeral c ∨ c = '_') → Piece quote segment (wrapped quote run)

/-- A safe character is a letter, a numeral or an underscore. -/
theorem safeChar_class (c : Char) :
    isAlphabetic (safeChar c) ∨ isNumeral (safeChar c) ∨ safeChar c = '_' := by
  rw [safeChar]
  split
  next h =>
    rcases Bool.or_eq_true_iff.mp h with h | h
    · exact .inl h
    · exact .inr (.inl h)
  next => exact .inr (.inr rfl)

/-- Neither a dot nor a double quote is a letter, a numeral or an underscore. -/
theorem ne_of_class {c : Char} (h : isAlphabetic c ∨ isNumeral c ∨ c = '_') :
    c ≠ '.' ∧ c ≠ '"' := by
  constructor
  · rintro rfl
    exact absurd h (by decide +kernel)
  · rintro rfl
    exact absurd h (by decide +kernel)

/-- A segment other than the star is made safe character by character. -/
theorem segmentChars_eq (quote : Bool) {s : List Char} (h : s ≠ ['*']) :
    segmentChars quote s = wrapped quote (s.map safeChar) := by
  rw [segmentChars, if_neg h]
  rfl

/-- A segment that matches is written as a piece. -/
theorem Matches.piece (quote : Bool) {s s' : List Char} (h : Matches s s') :
    Piece quote s (segmentChars quote s') := by
  by_cases hs : s' = ['*']
  · rw [segmentChars, if_pos hs, hs, h.star.mpr hs]
    exact .star
  · rw [segmentChars_eq quote hs]
    refine .run (fun he => hs (h.star.mp he)) fun c hc => ?_
    obtain ⟨x, -, rfl⟩ := List.mem_map.mp hc
    exact safeChar_class x

/-- No piece has a dot. -/
theorem Piece.dot_not_mem {quote : Bool} {segment piece : List Char}
    (h : Piece quote segment piece) : '.' ∉ piece := by
  cases h with
  | star => decide
  | @run _ run _ hrun =>
      have hdot : '.' ∉ run := fun hm => (ne_of_class (hrun _ hm)).1 rfl
      cases quote with
      | false => exact hdot
      | true => simpa [wrapped] using hdot

/-- Texts without dots are joined by as many dots as there are gaps. -/
theorem count_intercalate {ps : List (List Char)} (hne : ps ≠ []) (h : ∀ p ∈ ps, '.' ∉ p) :
    (['.'].intercalate ps).count '.' + 1 = ps.length := by
  induction ps with
  | nil => exact absurd rfl hne
  | cons p ps ih =>
      have hp : p.count '.' = 0 := List.count_eq_zero.mpr (h p List.mem_cons_self)
      cases ps with
      | nil => simpa using hp
      | cons q ps =>
          have ih := ih (List.cons_ne_nil _ _) fun x hx => h x (List.mem_cons_of_mem _ hx)
          rw [List.intercalate_cons_cons, List.count_append, List.count_append, hp]
          simp only [List.count_singleton_self, List.length_cons] at ih ⊢
          omega

/-- Dropping characters other than the dot from texts joined by dots. -/
theorem filter_intercalate {p : Char → Bool} (h : p '.') (ps : List (List Char)) :
    (['.'].intercalate ps).filter p = ['.'].intercalate (ps.map (List.filter p)) := by
  induction ps with
  | nil => rfl
  | cons q ps ih =>
      cases ps with
      | nil => simp
      | cons q' ps =>
          rw [List.intercalate_cons_cons, List.filter_append, List.filter_append, ih]
          simp [h, List.intercalate_cons_cons]

/-! ## Names -/

/-- Whether a name is written as it is: the star, or a dollar sign and one or more digits. -/
def IsFixed (n : String) : Prop :=
  n = "*" ∨ ∃ ds, n.toList = '$' :: ds ∧ ds ≠ [] ∧ ∀ c ∈ ds, c.isDigit

/-- A parameter is a dollar sign and one or more digits. -/
theorem isParameter_iff (cs : List Char) :
    isParameter cs ↔ ∃ ds, cs = '$' :: ds ∧ ds ≠ [] ∧ ∀ c ∈ ds, c.isDigit := by
  have hdigit : ∀ c : Char, (decide ('0' ≤ c) && decide (c ≤ '9')) = true ↔ c.isDigit := by
    intro c
    rw [Char.isDigit_iff_toNat, Bool.and_eq_true, decide_eq_true_eq, decide_eq_true_eq]
    exact Iff.rfl
  constructor
  · intro h
    rw [isParameter.eq_def] at h
    split at h
    next d ds =>
      exact ⟨d :: ds, rfl, List.cons_ne_nil _ _,
        fun c hc => (hdigit c).mp (List.all_eq_true.mp h c hc)⟩
    next => cases h
  · rintro ⟨ds, rfl, hne, hds⟩
    obtain ⟨d, ds, rfl⟩ := List.exists_cons_of_ne_nil hne
    rw [isParameter]
    exact List.all_eq_true.mpr fun c hc => (hdigit c).mpr (hds c hc)

/-- The names that are written as they are, as the definition of names tests them. -/
theorem isFixed_iff (n : String) :
    IsFixed n ↔ n.toList = ['*'] ∨ isParameter n.toList := by
  rw [IsFixed, isParameter_iff, ← String.toList_inj]
  exact Iff.rfl

/-- A name that is written as it is has no double quotes. -/
theorem quote_not_mem_of_isFixed {n : String} (h : IsFixed n) : '"' ∉ n.toList := by
  rcases h with rfl | ⟨ds, hn, -, hds⟩
  · decide
  · rw [hn]
    intro hm
    rcases List.mem_cons.mp hm with hm | hm
    · exact absurd hm (by decide)
    · exact absurd (hds _ hm) (by decide)

/-- Any other name is written segment by segment. -/
theorem toList_write_of_not_isFixed {n : String} (h : ¬ IsFixed n) (quote : Bool) :
    (write quote n).toList =
      ['.'].intercalate ((segments (lowercase n.toList)).map (segmentChars quote)) := by
  rw [write, String.toList_ofList, chars, if_neg fun hf => h ((isFixed_iff n).mpr hf)]

/-- Without its double quotes, a segment is written as it is where none are asked for. -/
theorem filter_segmentChars (s : List Char) :
    (segmentChars true s).filter (· ≠ '"') = segmentChars false s := by
  by_cases hs : s = ['*']
  · rw [hs]
    rfl
  · have hsafe : ∀ c ∈ s.map safeChar, decide (c ≠ '"') = true := by
      intro c hc
      obtain ⟨x, -, rfl⟩ := List.mem_map.mp hc
      exact decide_eq_true (ne_of_class (safeChar_class x)).2
    rw [segmentChars_eq true hs, segmentChars_eq false hs]
    show ('"' :: (s.map safeChar ++ ['"'])).filter _ = s.map safeChar
    rw [List.filter_cons_of_neg (by decide), List.filter_append, List.filter_eq_self.mpr hsafe,
      List.filter_cons_of_neg (by decide), List.filter_nil, List.append_nil]

/-- **A name stays in its place.**  The star and numbered parameters are written as they are.  Any
    other name is written as one piece for each of its segments, joined by as many dots as it has;
    a piece is the star for a star, or a run of letters, numerals and underscores, which stands in
    double quotes exactly if asked for.  Erasing the double quotes gives the name without them. -/
theorem write_pieces (n : String) :
    (∀ quote, IsFixed n → write quote n = n) ∧
    (∀ quote, ¬ IsFixed n → ∃ pieces, (write quote n).toList = ['.'].intercalate pieces ∧
      List.Forall₂ (Piece quote) (n.toList.splitOn '.') pieces ∧
      (write quote n).toList.count '.' = n.toList.count '.') ∧
    (write true n).toList.filter (· ≠ '"') = (write false n).toList := by
  have hfixed : ∀ quote, IsFixed n → write quote n = n := by
    intro quote h
    rw [write, chars, if_pos ((isFixed_iff n).mp h), String.ofList_toList]
  refine ⟨hfixed, fun quote h => ?_, ?_⟩
  · have hpieces : List.Forall₂ (Piece quote) (segments n.toList)
        ((segments (lowercase n.toList)).map (segmentChars quote)) :=
      List.forall₂_map_right_iff.mpr
        ((matches_lowerAfter [] n.toList).imp fun _ _ hm => hm.piece quote)
    refine ⟨_, toList_write_of_not_isFixed h quote, segments_eq_splitOn n.toList ▸ hpieces, ?_⟩
    have hne : (segments (lowercase n.toList)).map (segmentChars quote) ≠ [] := by
      simpa using segments_ne_nil _
    have hdots : ∀ p ∈ (segments (lowercase n.toList)).map (segmentChars quote), '.' ∉ p := by
      intro p hp
      obtain ⟨s, -, rfl⟩ := List.mem_map.mp hp
      -- Here only the form of a piece counts, not the segment it stands for.
      have hself : Matches s s := ⟨Iff.rfl, Iff.rfl⟩
      exact (hself.piece quote).dot_not_mem
    have hcount := count_intercalate hne hdots
    rw [← toList_write_of_not_isFixed h quote, ← hpieces.length_eq, length_segments] at hcount
    omega
  · by_cases h : IsFixed n
    · have hquote := quote_not_mem_of_isFixed h
      rw [hfixed true h, hfixed false h, List.filter_eq_self]
      intro c hc
      exact decide_eq_true fun he => hquote (he ▸ hc)
    · rw [toList_write_of_not_isFixed h, toList_write_of_not_isFixed h,
        filter_intercalate (by decide), List.map_map]
      exact congrArg _ (List.map_congr_left fun s _ => filter_segmentChars s)

/-- Empty segments, stars alone and with something beside them, and what is not a parameter. -/
example :
    write true "$x1..*.*A\"" = "\"_x1\".\"\".*.\"_a_\"" ∧
      write false "$x1..*.*A\"" = "_x1..*._a_" := by
  decide +kernel

end Name
end SqlForms
