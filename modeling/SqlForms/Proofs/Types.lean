import Mathlib.Data.List.Forall2
import SqlForms.Proofs.Layouts

/-! # Which descriptors are types

    The text of a type goes into a statement without quotes, so it must not
    hold anything but the words of a type and its numbers.  A descriptor is
    checked for that before it is written, and the check is exact: what is a
    type can be said without it (`TypeName.Valid`).

    Letters are compared and written in ASCII only.  A name has no other
    characters, so each fact about a letter is found by looking at 128 of them
    (`TypeName.forall_nameChar`).  The text of a type is taken apart in
    `TypeName.write_eq_ok`; its form and its stability are read off there. -/

namespace SqlForms

/-- A step succeeds on all items of a row when it does on each of them. -/
theorem mapM_eq_ok {α β : Type} {f : α → Except Error β} {as : List α} {bs : List β} :
    as.mapM f = .ok bs ↔ List.Forall₂ (fun a b => f a = .ok b) as bs := by
  induction as generalizing bs with
  | nil =>
      rw [List.forall₂_nil_left_iff]
      exact ⟨fun h => (Except.ok.inj h).symm, fun h => congrArg Except.ok h.symm⟩
  | cons a as ih =>
      rw [List.mapM_cons, List.forall₂_cons_left_iff, bind_eq_ok]
      constructor
      · rintro ⟨b, hb, h⟩
        obtain ⟨bs', hbs, h⟩ := bind_eq_ok.mp h
        cases h
        exact ⟨b, bs', hb, ih.mp hbs, rfl⟩
      · rintro ⟨b, bs', hb, hbs, rfl⟩
        exact ⟨b, hb, bind_eq_ok.mpr ⟨bs', ih.mpr hbs, rfl⟩⟩

namespace TypeName

/-! ## Characters -/

/-- ASCII letters and digits, hyphen, underscore and blank. -/
def NameChar (c : Char) : Prop :=
  c.isUpper ∨ c.isLower ∨ c.isDigit ∨ c = '-' ∨ c = '_' ∨ c = ' '

/-- ASCII capitals and digits, and blank. -/
def WordChar (c : Char) : Prop :=
  c.isUpper ∨ c.isDigit ∨ c = ' '

instance (c : Char) : Decidable (WordChar c) :=
  inferInstanceAs (Decidable (_ ∨ _))

/-- How a character of a name is written: a small letter as its capital, a hyphen or an underscore
    as a blank, and any other as it is. -/
def Spelled (c d : Char) : Prop :=
  c.isLower ∧ d.isUpper ∧ d.toNat + 32 = c.toNat ∨ (c.isUpper ∨ c.isDigit) ∧ d = c ∨
    (c = '-' ∨ c = '_' ∨ c = ' ') ∧ d = ' '

instance (c d : Char) : Decidable (Spelled c d) :=
  inferInstanceAs (Decidable (_ ∨ _))

/-- The check tells the characters of a type name. -/
theorem isNameChar_iff {c : Char} : isNameChar c = true ↔ NameChar c := by
  have halnum : c.isAlphanum = ((c.isUpper || c.isLower) || c.isDigit) := rfl
  simp only [isNameChar, halnum, Bool.or_eq_true, beq_iff_eq, NameChar, or_assoc]

private theorem spelled_writeChar {c : Char} (h : isNameChar c) : Spelled c (writeChar c) :=
  forall_nameChar (p := fun c => Spelled c (writeChar c)) (by decide) h

private theorem isNameChar_of_wordChar {c : Char} (h : WordChar c) : isNameChar c := by
  refine isNameChar_iff.mpr ?_
  rcases h with h | h | h
  · exact .inl h
  · exact .inr (.inr (.inl h))
  · exact .inr (.inr (.inr (.inr (.inr h))))

private theorem writeChar_of_wordChar {c : Char} (h : WordChar c) : writeChar c = c :=
  forall_nameChar (p := fun c => WordChar c → writeChar c = c) (by decide)
    (isNameChar_of_wordChar h) h

private theorem toLower_writeChar {c : Char} (h : isNameChar c) :
    (writeChar c).toLower = ' ' ∨ (writeChar c).toLower = c.toLower :=
  forall_nameChar (p := fun c => (writeChar c).toLower = ' ' ∨ (writeChar c).toLower = c.toLower)
    (by decide) h

private theorem eq_toLower_or {c : Char} (h : isNameChar c) :
    c = c.toLower ∨ c = c.toLower.toUpper :=
  forall_nameChar (p := fun c => c = c.toLower ∨ c = c.toLower.toUpper) (by decide) h

private theorem toLower_of_isLower {d : Char} (h : d.isLower) :
    d.toLower = d ∧ d.toUpper.toLower = d :=
  forall_nameChar (p := fun d => d.isLower → d.toLower = d ∧ d.toUpper.toLower = d) (by decide)
    (isNameChar_iff.mpr (.inr (.inl h))) h

/-! ## Names -/

/-- Whether a name is `string` with any of its letters as capitals. -/
def IsString (name : String) : Prop :=
  List.Forall₂ (fun c d => c = d ∨ c = d.toUpper) name.toList "string".toList

/-- A type name is not empty and has only characters of type names. -/
theorem isName_iff {name : String} :
    isName name = true ↔ name ≠ "" ∧ ∀ c ∈ name.toList, NameChar c := by
  simp only [isName, Bool.and_eq_true, Bool.not_eq_true', List.isEmpty_eq_false_iff,
    List.all_eq_true, isNameChar_iff, ne_eq, String.toList_eq_nil_iff]

theorem isNameChar_of_mem {name : String} (h : isName name) {c : Char} (hc : c ∈ name.toList) :
    isNameChar c :=
  isNameChar_iff.mpr ((isName_iff.mp h).2 c hc)

/-- Made small, characters are some small letters when they are those or their capitals. -/
theorem map_toLower_eq {cs ds : List Char} (hcs : ∀ c ∈ cs, isNameChar c)
    (hds : ∀ d ∈ ds, d.isLower) :
    cs.map Char.toLower = ds ↔ List.Forall₂ (fun c d => c = d ∨ c = d.toUpper) cs ds := by
  induction cs generalizing ds with
  | nil => cases ds <;> simp
  | cons c cs ih =>
      obtain ⟨hc, hcs⟩ := List.forall_mem_cons.mp hcs
      cases ds with
      | nil => simp
      | cons d ds =>
          obtain ⟨hd, hds⟩ := List.forall_mem_cons.mp hds
          rw [List.map_cons, List.cons.injEq, List.forall₂_cons, ih hcs hds]
          refine and_congr_left fun _ => ⟨?_, ?_⟩
          · rintro rfl
            exact eq_toLower_or hc
          · rintro (rfl | rfl)
            · exact (toLower_of_isLower hd).1
            · exact (toLower_of_isLower hd).2

private theorem asciiLower_eq_string {name : String} (h : isName name) :
    asciiLower name = ['s', 't', 'r', 'i', 'n', 'g'] ↔ IsString name :=
  map_toLower_eq (fun _ hc => isNameChar_of_mem h hc) (List.all_eq_true.mp (by decide))

/-! ## Parameters -/

/-- Whether a tree is an integer constant of the given amount. -/
def Parameter (e : Expr) (n : Nat) : Prop :=
  ∃ i : Int64, (e = .literal (.int i) ∨ e = .quoted (.int i)) ∧ i.toInt = n

/-- A parameter is a signed word that is not negative. -/
theorem parameterOfInt_eq_ok {i : Int64} {n : Nat} : parameterOfInt i = .ok n ↔ i.toInt = n := by
  rw [parameterOfInt]
  split
  next h =>
    constructor
    · intro hn; cases hn
    · omega
  next h =>
    rw [Except.ok.injEq]
    omega

/-- The check reads exactly the parameters. -/
theorem parameter_eq_ok {e : Expr} {n : Nat} : parameter e = .ok n ↔ Parameter e n := by
  constructor
  · intro h
    unfold parameter at h
    split at h
    next i => exact ⟨i, .inl rfl, parameterOfInt_eq_ok.mp h⟩
    next i => exact ⟨i, .inr rfl, parameterOfInt_eq_ok.mp h⟩
    next => cases h
  · rintro ⟨i, rfl | rfl, hi⟩
    · exact parameterOfInt_eq_ok.mpr hi
    · exact parameterOfInt_eq_ok.mpr hi

/-- Texts in parentheses, divided by a comma and a blank; nothing when there are none. -/
def enclosed : List (List Char) → List Char
  | [] => []
  | ts => '(' :: ([',', ' '].intercalate ts ++ [')'])

private theorem toList_toString (n : Nat) : (toString n).toList = Nat.toDigits 10 n := by
  rw [Nat.toString_eq_ofList_toDigits, String.toList_ofList]

/-- Parameters are written in parentheses with commas between, and none as nothing. -/
theorem toList_writeParameters (ns : List Nat) :
    (writeParameters ns).toList = enclosed (ns.map (Nat.toDigits 10)) := by
  cases ns with
  | nil => rfl
  | cons n ns =>
      have hdigits : ((n :: ns).map toString).map String.toList =
          (n :: ns).map (Nat.toDigits 10) := by
        rw [List.map_map]
        exact List.map_congr_left fun m _ => toList_toString m
      show ("(" ++ ", ".intercalate ((n :: ns).map toString) ++ ")").toList = _
      rw [String.toList_append, String.toList_append, String.toList_intercalate, hdigits]
      rfl

/-! ## What is written -/

variable {name : String} {ns : List Nat} {s : String}

/-- The texts of types: the name as it is spelled and its parameters, unless the name is that of
    strings. -/
theorem write_eq_ok : write name ns = .ok s ↔ isName name ∧
    (IsString name ∧ (ns = [] ∧ s = "TEXT" ∨ ∃ n, ns = [n] ∧ s = "CHAR(" ++ toString n ++ ")") ∨
      ¬ IsString name ∧ s = String.ofList (name.toList.map writeChar) ++ writeParameters ns) := by
  rw [write.eq_def]
  by_cases hn : isName name
  · rw [if_neg (not_not_intro hn), and_iff_right hn]
    by_cases hs : IsString name
    · rw [if_pos ((asciiLower_eq_string hn).mpr hs)]
      simp only [hs, not_true_eq_false, true_and, false_and, or_false]
      rcases ns with _ | ⟨n, _ | ⟨m, ns⟩⟩
      · simp [@eq_comm _ s]
      · simp [@eq_comm _ s]
      · simp
    · rw [if_neg (mt (asciiLower_eq_string hn).mp hs)]
      simp [hs, @eq_comm _ s]
  · rw [if_pos hn]
    simp [hn]

/-- A type is written exactly when its name is one and `string` has at most one parameter. -/
theorem exists_write :
    (∃ s, write name ns = .ok s) ↔ isName name ∧ (IsString name → ns.length ≤ 1) := by
  simp only [write_eq_ok, exists_and_left]
  refine and_congr_right fun _ => ?_
  by_cases hs : IsString name
  · simp only [hs, not_true_eq_false, true_and, false_and, or_false, forall_const]
    rcases ns with _ | ⟨n, _ | ⟨m, ns⟩⟩
    · simp
    · simp
    · simp
  · simp [hs]

/-- What stands before the parameters of a type. -/
inductive Base (name : String) : List Nat → List Char → Prop where
  /-- Strings without a length are texts. -/
  | text : IsString name → Base name [] "TEXT".toList
  /-- Strings with a length are characters. -/
  | char (n : Nat) : IsString name → Base name [n] "CHAR".toList
  /-- Every other name is spelled out. -/
  | spelled {ns : List Nat} {base : List Char} :
      ¬ IsString name → List.Forall₂ Spelled name.toList base → Base name ns base

private theorem Spelled.wordChar {c d : Char} (h : Spelled c d) : WordChar d := by
  rcases h with ⟨-, hd, -⟩ | ⟨hc | hc, rfl⟩ | ⟨-, rfl⟩
  · exact .inl hd
  · exact .inl hc
  · exact .inr (.inl hc)
  · exact .inr (.inr rfl)

private theorem wordChar_of_spelled {cs ds : List Char} (h : List.Forall₂ Spelled cs ds) :
    ∀ d ∈ ds, WordChar d := by
  induction h with
  | nil => simp
  | cons hcd _ ih => exact List.forall_mem_cons.mpr ⟨hcd.wordChar, ih⟩

/-- What stands before the parameters are characters of written types. -/
theorem Base.wordChar {base : List Char} (h : Base name ns base) : ∀ c ∈ base, WordChar c := by
  cases h with
  | text => exact fun c hc => .inl (List.all_eq_true.mp (by decide) c hc)
  | char => exact fun c hc => .inl (List.all_eq_true.mp (by decide) c hc)
  | spelled _ hbase => exact wordChar_of_spelled hbase

/-- Something stands before the parameters. -/
theorem Base.ne_nil {base : List Char} (h : Base name ns base) (hn : isName name) : base ≠ [] := by
  cases h with
  | text => decide
  | char => decide
  | spelled _ hbase =>
      rintro rfl
      exact (isName_iff.mp hn).1 (String.toList_eq_nil_iff.mp (List.forall₂_nil_right_iff.mp hbase))

/-- The text of a type is its base and its parameters. -/
theorem exists_base (h : write name ns = .ok s) :
    ∃ base, Base name ns base ∧ s.toList = base ++ enclosed (ns.map (Nat.toDigits 10)) := by
  obtain ⟨hn, ⟨hs, ⟨rfl, rfl⟩ | ⟨n, rfl, rfl⟩⟩ | ⟨hs, rfl⟩⟩ := write_eq_ok.mp h
  · exact ⟨_, .text hs, rfl⟩
  · refine ⟨_, .char n hs, ?_⟩
    rw [String.toList_append, String.toList_append, toList_toString]
    simp [enclosed]
  · refine ⟨name.toList.map writeChar, .spelled hs ?_, ?_⟩
    · refine List.forall₂_map_right_iff.mpr (List.forall₂_same.mpr fun c hc => ?_)
      exact spelled_writeChar (isNameChar_of_mem hn hc)
    · rw [String.toList_append, String.toList_ofList, toList_writeParameters]

/-! ## Writing again -/

/-- Where a written name has no blank, its letters are those of the name. -/
theorem map_toLower_writeChar {cs ds : List Char} (hcs : ∀ c ∈ cs, isNameChar c) (hds : ' ' ∉ ds)
    (h : (cs.map writeChar).map Char.toLower = ds) : cs.map Char.toLower = ds := by
  rw [← h, List.map_map]
  refine List.map_congr_left fun c hc => ?_
  rcases toLower_writeChar (hcs c hc) with hblank | hsame
  · -- A character that is written as a blank stays one, and there is none.
    refine absurd ?_ hds
    rw [← hblank, ← h]
    exact List.mem_map_of_mem (List.mem_map_of_mem hc)
  · exact hsame.symm

/-- A name is that of strings if it is spelled out as that of strings. -/
theorem isString_of_spelled (hn : isName name) (hs : isName s)
    (hlist : s.toList = name.toList.map writeChar) (h : IsString s) : IsString name := by
  refine (asciiLower_eq_string hn).mp
    (map_toLower_writeChar (fun c => isNameChar_of_mem hn) (by decide) ?_)
  rw [← hlist]
  exact (asciiLower_eq_string hs).mpr h

/-- A written name without parameters is written as it is. -/
theorem write_again (h : write name [] = .ok s) : write s [] = .ok s := by
  obtain ⟨hn, ⟨-, ⟨-, rfl⟩ | ⟨n, hnil, -⟩⟩ | ⟨hnot, hspelled⟩⟩ := write_eq_ok.mp h
  · rfl
  · cases hnil
  · have hlist : s.toList = name.toList.map writeChar := by
      rw [hspelled, String.toList_append, String.toList_ofList]
      exact List.append_nil _
    -- What is spelled out consists of characters that are written as they are.
    have hword : ∀ c ∈ s.toList, WordChar c := by
      rw [hlist, List.forall_mem_map]
      exact fun c hc => (spelled_writeChar (isNameChar_of_mem hn hc)).wordChar
    have hsame : s.toList.map writeChar = s.toList := by
      rw [List.map_congr_left fun c hc => writeChar_of_wordChar (hword c hc), List.map_id']
    have hs : isName s := by
      refine isName_iff.mpr ⟨fun hempty => (isName_iff.mp hn).1 ?_, fun c hc => ?_⟩
      · rw [hempty] at hlist
        exact String.toList_eq_nil_iff.mp (List.map_eq_nil_iff.mp hlist.symm)
      · exact isNameChar_iff.mp (isNameChar_of_wordChar (hword c hc))
    refine write_eq_ok.mpr ⟨hs, .inr ⟨fun h => hnot (isString_of_spelled hn hs hlist h), ?_⟩⟩
    rw [hsame, String.ofList_toList]
    exact String.append_empty.symm

/-! ## Descriptors -/

/-- The name of a descriptor and its operands. -/
inductive Describes : Expr → String → List Expr → Prop where
  | identifier (name : String) : Describes (.identifier name) name []
  | keyword (name : String) : Describes (.keyword name) name []
  | operation (tag : String) (operands : List Expr) :
      Describes (.operation tag operands) tag operands

/-- Whether a name and its operands are a type. -/
structure Valid (name : String) (operands : List Expr) : Prop where
  nonempty : name ≠ ""
  chars : ∀ c ∈ name.toList, NameChar c
  parameters : ∀ e ∈ operands, ∃ n, Parameter e n
  /-- Strings have at most a length. -/
  string : IsString name → operands.length ≤ 1

/-- A descriptor is written as its name with its operands as parameters. -/
theorem ofExpr_eq_ok {type : Expr} : ofExpr type = .ok s ↔ ∃ name operands ns,
    Describes type name operands ∧ List.Forall₂ Parameter operands ns ∧ write name ns = .ok s := by
  constructor
  · intro h
    cases type with
    | identifier name => exact ⟨name, [], [], .identifier name, .nil, h⟩
    | keyword name => exact ⟨name, [], [], .keyword name, .nil, h⟩
    | operation tag operands =>
        obtain ⟨ns, hns, h⟩ := bind_eq_ok.mp h
        refine ⟨tag, operands, ns, .operation tag operands, ?_, h⟩
        exact (mapM_eq_ok.mp hns).imp fun _ _ => parameter_eq_ok.mp
    | _ => cases h
  · rintro ⟨name, operands, ns, hd, hns, h⟩
    cases hd with
    | identifier =>
        cases hns
        exact h
    | keyword =>
        cases hns
        exact h
    | operation =>
        refine bind_eq_ok.mpr ⟨ns, ?_, h⟩
        exact mapM_eq_ok.mpr (hns.imp fun _ _ => parameter_eq_ok.mpr)

/-- A descriptor is accepted when its name and operands are a type. -/
theorem exists_ofExpr {type : Expr} : (∃ s, ofExpr type = .ok s) ↔
    ∃ name operands, Describes type name operands ∧ Valid name operands := by
  simp only [ofExpr_eq_ok]
  constructor
  · rintro ⟨s, name, operands, ns, hd, hns, h⟩
    obtain ⟨hn, hstring⟩ := exists_write.mp ⟨s, h⟩
    obtain ⟨hne, hchars⟩ := isName_iff.mp hn
    refine ⟨name, operands, hd, hne, hchars, exists_forall₂_iff.mp ⟨ns, hns⟩, fun hs => ?_⟩
    rw [hns.length_eq]
    exact hstring hs
  · rintro ⟨name, operands, hd, hvalid⟩
    obtain ⟨ns, hns⟩ := exists_forall₂_iff.mpr hvalid.parameters
    have hstring : IsString name → ns.length ≤ 1 := fun hs => hns.length_eq ▸ hvalid.string hs
    obtain ⟨s, h⟩ := exists_write.mpr ⟨isName_iff.mpr ⟨hvalid.nonempty, hvalid.chars⟩, hstring⟩
    exact ⟨s, name, operands, ns, hd, hns, h⟩

/-- **Type descriptors are checked exactly and written once and for all.**  A descriptor is accepted
    when it is a name of ASCII letters, digits, hyphens, underscores and blanks, with integers that
    are not negative as its operands, at most one of them for a string.  It is written as capitals,
    digits and blanks, and then its operands in order; and without operands, what is written is a
    name that is written as it is. -/
theorem ofExpr_accepted_iff_valid (type : Expr) :
    ((∃ s, ofExpr type = .ok s) ↔
        ∃ name operands, Describes type name operands ∧ Valid name operands) ∧
      ∀ s, ofExpr type = .ok s → ∃ name operands ns base,
        Describes type name operands ∧ List.Forall₂ Parameter operands ns ∧ Base name ns base ∧
          base ≠ [] ∧ (∀ c ∈ base, WordChar c) ∧
          s.toList = base ++ enclosed (ns.map (Nat.toDigits 10)) ∧
          (operands = [] → ofExpr (.identifier s) = .ok s) := by
  refine ⟨exists_ofExpr, fun s hs => ?_⟩
  obtain ⟨name, operands, ns, hd, hns, h⟩ := ofExpr_eq_ok.mp hs
  obtain ⟨base, hbase, hlist⟩ := exists_base h
  refine ⟨name, operands, ns, base, hd, hns, hbase, hbase.ne_nil (write_eq_ok.mp h).1,
    hbase.wordChar, hlist, ?_⟩
  rintro rfl
  cases hns
  exact write_again h

/-- A name of several words with two parameters, and strings in mixed case. -/
theorem ofExpr_accepted_iff_valid_words :
    let zoned : Expr := .operation "Time-zone_2" [.literal (.int 10), .quoted (.int 0)]
    ofExpr zoned = .ok "TIME ZONE 2(10, 0)" ∧
      (∃ name operands, Describes zoned name operands ∧ Valid name operands) ∧
      ofExpr (.keyword "sTRing") = .ok "TEXT" ∧ ofExpr (.identifier "TEXT") = .ok "TEXT" := by
  intro zoned
  have hzoned : ofExpr zoned = .ok "TIME ZONE 2(10, 0)" := rfl
  have htext : ofExpr (.keyword "sTRing") = .ok "TEXT" := rfl
  refine ⟨hzoned, (ofExpr_accepted_iff_valid zoned).1.mp ⟨_, hzoned⟩, htext, ?_⟩
  obtain ⟨name, operands, ns, base, hd, -, -, -, -, -, hagain⟩ :=
    (ofExpr_accepted_iff_valid (.keyword "sTRing")).2 _ htext
  cases hd
  exact hagain rfl

end TypeName
end SqlForms
