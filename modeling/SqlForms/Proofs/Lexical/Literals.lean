import SqlForms.Proofs.Lexical.Configuration

/-! # Reading literals back

    A string literal at the front of a text is read by the scanner of
    statements and decoded.  What was escaped is read back, and the reader
    stops where the literal stops (`literal?_quoteChars`), unless a quote
    follows that would double the closing one.

    A binary literal has two layers: bytes are first written as printable
    characters and octal escapes, and this text is then a string literal,
    where a backslash may have to be escaped once more.  Both layers are read
    back one after the other (`binary?_quote`); in the inner one the step is a
    byte, of which the reader takes exactly the characters
    (`escapedBytes?_byteChars`). -/

namespace SqlForms

namespace Lexical

variable {d : Dialect}

/-! ## Strings -/

/-- What the string literal at the front of a text stands for, and what comes after it. -/
def literal? (d : Dialect) (cs : List Char) : Option (List Char × List Char) :=
  match front? d cs with
  | some (.string written, rest) => some (decode d written, rest)
  | _ => none

/-- What opens a literal opens a string. -/
theorem literal?_opening (cs : List Char) :
    literal? d (d.opening ++ cs) = (string? d cs).map fun r => (decode d r.1, r.2) := by
  have htoken : front? d (d.opening ++ cs) = (string? d cs).map fun r => (.string r.1, r.2) := by
    cases d with
    | standard => rfl
    | backslash => simp [front?, Dialect.opening, token?]
  rw [literal?, htoken]
  cases string? d cs <;> rfl

/-- The literal of a text is read up to its closing quote, and then as what follows tells. -/
theorem literal?_quoteChars_append (cs rest : List Char) :
    literal? d (d.quoteChars cs ++ rest) =
      (string? d ('\'' :: rest)).map fun r => (decode d (cs.flatMap d.escapeChar ++ r.1), r.2) := by
  rw [Dialect.quoteChars, List.append_assoc, List.append_assoc, literal?_opening,
    List.singleton_append, string?_escape_append, Option.map_map]
  rfl

/-- A literal is read back, unless a quote follows. -/
theorem literal?_quoteChars (cs : List Char) {rest : List Char} (hr : rest.head? ≠ some '\'') :
    literal? d (d.quoteChars cs ++ rest) = some (cs, rest) := by
  rw [literal?_quoteChars_append, string?_quote hr, Option.map_some, List.append_nil,
    decode_escape]

/-- A quote after a literal is taken into it. -/
theorem length_of_literal?_quoteChars {cs rest : List Char} {r : List Char × List Char}
    (h : literal? d (d.quoteChars cs ++ '\'' :: rest) = some r) : r.2.length < rest.length := by
  rw [literal?_quoteChars_append, string?, if_pos rfl, if_pos rfl, Option.map_map] at h
  obtain ⟨r', hr, rfl⟩ := Option.map_eq_some_iff.mp h
  exact string?_length (r := r') hr

/-- **Escaping is undone by reading.**  Exactly where no quote follows it, the literal of a text is
    read as that text, and what comes after it is left. -/
theorem literal?_quote_append_iff (d : Dialect) (s rest : String) :
    literal? d (d.quote s ++ rest).toList = some (s.toList, rest.toList) ↔
      rest.toList.head? ≠ some '\'' := by
  rw [String.toList_append, Dialect.quote, String.toList_ofList]
  refine ⟨fun h hq => ?_, literal?_quoteChars s.toList⟩
  obtain ⟨cs, hcs⟩ : ∃ cs, rest.toList = '\'' :: cs := List.head?_eq_some_iff.mp hq
  rw [hcs] at h
  have hlength : ('\'' :: cs).length < cs.length := length_of_literal?_quoteChars h
  rw [List.length_cons] at hlength
  omega

/-- A text that ends in a backslash and a quote, before a cast. -/
example :
    literal? .backslash "E'a\\\\'''::text".toList = some ("a\\'".toList, "::text".toList) := by
  decide

/-! ## Bytes -/

/-- Whether a character is an octal digit. -/
def isOctal (c : Char) : Bool :=
  decide ('0'.toNat ≤ c.toNat) && decide (c.toNat ≤ '7'.toNat)

/-- The number that three octal digits stand for. -/
def octalValue (x y z : Char) : Nat :=
  64 * (x.toNat - '0'.toNat) + 8 * (y.toNat - '0'.toNat) + (z.toNat - '0'.toNat)

/-- Bytes after the byte of the given code, if there is one. -/
def consByte? (code : Nat) (bytes : Option (List UInt8)) : Option (List UInt8) :=
  if code < 256 then bytes.map (UInt8.ofNat code :: ·) else none

/-- The bytes that a text stands for: a backslash and three octal digits are the byte of that
    number, and any other character is its own code. -/
def escapedBytes? : List Char → Option (List UInt8)
  | c :: x :: y :: z :: cs =>
      if c = '\\' ∧ isOctal x ∧ isOctal y ∧ isOctal z then
        consByte? (octalValue x y z) (escapedBytes? cs)
      else consByte? c.toNat (escapedBytes? (x :: y :: z :: cs))
  | c :: cs => consByte? c.toNat (escapedBytes? cs)
  | [] => some []

private theorem consByte?_toNat (b : UInt8) (bytes : Option (List UInt8)) :
    consByte? b.toNat bytes = bytes.map (b :: ·) := by
  rw [consByte?, if_pos b.toNat_lt, UInt8.ofNat_toNat]

private theorem escapedBytes?_escape {x y z : Char} (h : isOctal x ∧ isOctal y ∧ isOctal z)
    (cs : List Char) : escapedBytes? ('\\' :: x :: y :: z :: cs) =
      consByte? (octalValue x y z) (escapedBytes? cs) := by
  rw [escapedBytes?, if_pos ⟨rfl, h⟩]

private theorem escapedBytes?_cons {c : Char} (h : c ≠ '\\') (cs : List Char) :
    escapedBytes? (c :: cs) = consByte? c.toNat (escapedBytes? cs) := by
  rcases cs with _ | ⟨x, _ | ⟨y, _ | ⟨z, cs⟩⟩⟩
  · rfl
  · rfl
  · rfl
  · rw [escapedBytes?, if_neg fun hc => h hc.1]

/-- The digits below eight are octal, and stand for themselves. -/
theorem isOctal_digitChar {n : Nat} (h : n < 8) :
    isOctal (Nat.digitChar n) ∧ (Nat.digitChar n).toNat - '0'.toNat = n := by
  have hzero : '0'.toNat = 48 := rfl
  have hseven : '7'.toNat = 55 := rfl
  rw [isOctal, Nat.toNat_digitChar_of_lt_ten (by omega), Bool.and_eq_true, decide_eq_true_iff,
    decide_eq_true_iff]
  omega

end Lexical

open Lexical

/-! ## The characters of a byte -/

/-- Whether a byte is written as an escape. -/
def isEscaped (b : UInt8) : Prop :=
  b.toNat < 32 ∨ 126 < b.toNat ∨ b.toNat = '\''.toNat ∨ b.toNat = '\\'.toNat

private theorem byteChars_of_isEscaped {b : UInt8} (h : isEscaped b) :
    byteChars b = ['\\', Nat.digitChar (b.toNat / 64), Nat.digitChar (b.toNat / 8 % 8),
      Nat.digitChar (b.toNat % 8)] :=
  if_pos h

/-- Any other byte is written as the character of its code. -/
theorem byteChars_of_not_isEscaped {b : UInt8} (h : ¬ isEscaped b) :
    ∃ c : Char, byteChars b = [c] ∧ c.toNat = b.toNat := by
  have hvalid : b.toNat.isValidChar := .inl (b.toNat_lt.trans (by decide))
  exact ⟨Char.ofNat b.toNat, if_neg h, congrArg Char.toNat (dif_pos hvalid)⟩

/-- A byte is written in printable characters without a quote. -/
theorem toNat_of_mem_byteChars {b : UInt8} {c : Char} (h : c ∈ byteChars b) :
    32 ≤ c.toNat ∧ c.toNat ≤ 126 ∧ c ≠ '\'' := by
  have hb := b.toNat_lt
  have hdigit : ∀ n < 8, 32 ≤ (Nat.digitChar n).toNat ∧ (Nat.digitChar n).toNat ≤ 126 ∧
      Nat.digitChar n ≠ '\'' := by
    decide
  by_cases he : isEscaped b
  · rw [byteChars_of_isEscaped he] at h
    simp only [List.mem_cons, List.not_mem_nil, or_false] at h
    rcases h with rfl | rfl | rfl | rfl
    · decide
    · exact hdigit _ (by omega)
    · exact hdigit _ (by omega)
    · exact hdigit _ (by omega)
  · obtain ⟨x, hx, hcode⟩ := byteChars_of_not_isEscaped he
    rw [hx, List.mem_singleton] at h
    subst h
    rw [isEscaped, ← hcode] at he
    refine ⟨by omega, by omega, ?_⟩
    rintro rfl
    exact he (.inr (.inr (.inl rfl)))

/-- The characters of a byte are read as that byte, whatever comes after them. -/
theorem escapedBytes?_byteChars (b : UInt8) (cs : List Char) :
    escapedBytes? (byteChars b ++ cs) = (escapedBytes? cs).map (b :: ·) := by
  have hb := b.toNat_lt
  rw [← consByte?_toNat]
  by_cases he : isEscaped b
  · obtain ⟨hx, hx'⟩ := isOctal_digitChar (n := b.toNat / 64) (by omega)
    obtain ⟨hy, hy'⟩ := isOctal_digitChar (n := b.toNat / 8 % 8) (by omega)
    obtain ⟨hz, hz'⟩ := isOctal_digitChar (n := b.toNat % 8) (by omega)
    have hvalue : octalValue (Nat.digitChar (b.toNat / 64)) (Nat.digitChar (b.toNat / 8 % 8))
        (Nat.digitChar (b.toNat % 8)) = b.toNat := by
      rw [octalValue, hx', hy', hz']
      omega
    rw [byteChars_of_isEscaped he]
    show escapedBytes? ('\\' :: _ :: _ :: _ :: cs) = _
    rw [escapedBytes?_escape ⟨hx, hy, hz⟩, hvalue]
  · obtain ⟨c, hc, hcode⟩ := byteChars_of_not_isEscaped he
    have hne : c ≠ '\\' := by
      rintro rfl
      exact he (.inr (.inr (.inr hcode.symm)))
    rw [hc, List.singleton_append, escapedBytes?_cons hne, hcode]

/-- The text of bytes is read as these bytes. -/
theorem escapedBytes?_byteText (bytes : List UInt8) :
    escapedBytes? (byteText bytes).toList = some bytes := by
  rw [byteText, String.toList_ofList]
  induction bytes with
  | nil => rfl
  | cons b bytes ih => rw [List.flatMap_cons, escapedBytes?_byteChars, ih, Option.map_some]

/-! ## Binary literals -/

/-- The bytes that a binary literal stands for. -/
def Lexical.binary? (d : Dialect) (s : String) : Option (List UInt8) :=
  match literal? d s.toList with
  | some (text, []) => escapedBytes? text
  | _ => none

/-- The text of bytes is read back through both layers. -/
theorem Lexical.binary?_quote (d : Dialect) (bytes : List UInt8) :
    binary? d (d.quote (byteText bytes)) = some bytes := by
  have hend : ([] : List Char).head? ≠ some '\'' := by
    intro h
    cases h
  have hread := literal?_quoteChars (d := d) (byteText bytes).toList hend
  rw [List.append_nil] at hread
  rw [binary?, Dialect.quote, String.toList_ofList, hread]
  exact escapedBytes?_byteText bytes

/-- **Binary literals are lossless.**  Every sequence of bytes has a literal, which is read back
    as these bytes, so different bytes have different literals; and the text inside the literal is
    printable and has no quote. -/
theorem Value.binary?_sql_bytes (d : Dialect) :
    (∀ bytes, ∃ s, (Value.bytes bytes).sql d = .ok s ∧ binary? d s = some bytes) ∧
    (∀ bytes bytes', (Value.bytes bytes).sql d = (Value.bytes bytes').sql d → bytes = bytes') ∧
    ∀ bytes, ∀ c ∈ (byteText bytes).toList, 32 ≤ c.toNat ∧ c.toNat ≤ 126 ∧ c ≠ '\'' := by
  have hsql : ∀ bytes, (Value.bytes bytes).sql d = .ok (d.quote (byteText bytes)) := fun _ => rfl
  refine ⟨fun bytes => ⟨_, hsql bytes, binary?_quote d bytes⟩, fun bytes bytes' h => ?_,
    fun bytes c hc => ?_⟩
  · rw [hsql, hsql] at h
    have hread := binary?_quote d bytes
    rw [Except.ok.inj h, binary?_quote] at hread
    exact (Option.some.inj hread).symm
  · rw [byteText, String.toList_ofList] at hc
    obtain ⟨b, -, hc⟩ := List.mem_flatMap.mp hc
    exact toNat_of_mem_byteChars hc

/-- An escape before a digit, a quote and a backslash; the backslashes are doubled or not. -/
example :
    (Value.bytes [1, 50, 39, 92]).sql .backslash = .ok "E'\\\\0012\\\\047\\\\134'" ∧
      (Value.bytes [1, 50, 39, 92]).sql .standard = .ok "'\\0012\\047\\134'" :=
  ⟨rfl, rfl⟩

end SqlForms
