import SqlForms.Json.Writer
import SqlForms.Proofs.Exchange.Numbers

/-! # The tokens of a written value

    Scanning what was written gives the tokens of the value.  A string and
    a mark end with their last character.  A bare word only ends where a
    character stands that cannot continue it, so after one the scanner
    still holds the word; no text puts two words side by side, and the mark
    between them, or the end, settles what the scanner holds. -/

namespace SqlForms

namespace Json

mutual

/-- The tokens of a value. -/
def tokens : Json → List JsonToken
  | .null => [.scalar (some .null)]
  | .bool b => [.scalar (some (.bool b))]
  | .number n => [.scalar (some (.number n))]
  | .string s => [.text (some s)]
  | .array items => .openArray :: ([.comma].intercalate (itemTokens items) ++ [.closeArray])
  | .object members =>
      .openObject :: ([.comma].intercalate (memberTokens members) ++ [.closeObject])

/-- The tokens of the items of an array. -/
def itemTokens : List Json → List (List JsonToken)
  | [] => []
  | item :: items => tokens item :: itemTokens items

/-- The tokens of the members of an object. -/
def memberTokens : List (String × Json) → List (List JsonToken)
  | [] => []
  | (key, value) :: members => (.text (some key) :: .colon :: tokens value) :: memberTokens members

end

end Json

namespace JsonToken

/-! ## What a scanner holds -/

/-- The tokens so far, last first, counting the word that the scanner may still hold. -/
inductive Settles : Progress → List JsonToken → Prop where
  | between (ts : List JsonToken) : Settles ⟨ts, .between⟩ ts
  | word {ts : List JsonToken} {seen : List Char} {t : JsonToken}
      (h : word? seen.reverse = some t) : Settles ⟨ts, .word seen⟩ (t :: ts)

/-- A text may end where its tokens are settled. -/
theorem Settles.finish? {p : Progress} {ts : List JsonToken} (h : Settles p ts) :
    p.finish? = some ts.reverse := by
  cases h with
  | between => rfl
  | word h => simp [Progress.finish?, h]

/-- A character that cannot continue a word settles the word. -/
theorem Settles.step? {p : Progress} {ts : List JsonToken} (h : Settles p ts) {c : Char}
    (hc : isWordChar c = false) : p.step? c = Progress.step? ⟨ts, .between⟩ c := by
  cases h with
  | between => rfl
  | word h =>
      simp only [Progress.step?, JsonToken.step?, hc, h]
      cases start? c <;> simp

/-- Whether a text stands for tokens and ends with the last of them. -/
def Complete (cs : List Char) (ts : List JsonToken) : Prop :=
  ∀ before, cs.foldlM Progress.step? ⟨before, .between⟩ = some ⟨ts.reverse ++ before, .between⟩

/-- Whether a text stands for tokens, the last of which may still be held. -/
def Reads (cs : List Char) (ts : List JsonToken) : Prop :=
  ∀ before, ∃ p, cs.foldlM Progress.step? ⟨before, .between⟩ = some p ∧
    Settles p (ts.reverse ++ before)

section Composing

variable {cs cs' : List Char} {ts ts' : List JsonToken}

/-- What is complete is read. -/
theorem Complete.reads (h : Complete cs ts) : Reads cs ts :=
  fun before => ⟨_, h before, .between _⟩

private theorem complete_nil : Complete [] [] :=
  fun _ => rfl

/-- Complete texts one after the other are complete. -/
theorem Complete.append (h : Complete cs ts) (h' : Complete cs' ts') :
    Complete (cs ++ cs') (ts ++ ts') := by
  intro before
  rw [List.foldlM_append, h before]
  simpa using h' (ts.reverse ++ before)

/-- What is read after a complete text is read with it. -/
theorem Complete.append_reads (h : Complete cs ts) (h' : Reads cs' ts') :
    Reads (cs ++ cs') (ts ++ ts') := by
  intro before
  rw [List.foldlM_append, h before]
  simpa using h' (ts.reverse ++ before)

/-- A mark is a token of its own, and settles what comes before it. -/
theorem Reads.mark (h : Reads cs ts) {c : Char} {t : JsonToken} (hc : isWordChar c = false)
    (ht : start? c = some ([t], .between)) : Complete (cs ++ [c]) (ts ++ [t]) := by
  intro before
  obtain ⟨p, hp, hs⟩ := h before
  rw [List.foldlM_append, hp]
  show [c].foldlM Progress.step? p = _
  rw [List.foldlM_cons, hs.step? hc]
  simp [Progress.step?, JsonToken.step?, ht]

/-- A mark is a token of its own. -/
theorem complete_mark {c : Char} {t : JsonToken} (hc : isWordChar c = false)
    (ht : start? c = some ([t], .between)) : Complete [c] [t] :=
  complete_nil.reads.mark hc ht

/-- Texts with commas between them stand for their tokens with commas between them. -/
theorem reads_intercalate {css : List (List Char)} {tss : List (List JsonToken)}
    (h : List.Forall₂ Reads css tss) :
    Reads ([','].intercalate css) ([JsonToken.comma].intercalate tss) := by
  induction h with
  | nil => exact complete_nil.reads
  | @cons cs ts css tss h hs ih =>
      cases hs with
      | nil => simpa using h
      | cons h' hs' =>
          rw [List.intercalate_cons_cons, List.intercalate_cons_cons]
          exact (h.mark (by decide) rfl).append_reads ih

end Composing

/-! ## Strings -/

private theorem hexValue?_hexDigit (n : Nat) : hexValue? (Json.hexDigit n) = some (n % 16) := by
  have hdigit : ∀ k < 16, hexValue? (Nat.digitChar k) = some k := by decide
  exact hdigit (n % 16) (Nat.mod_lt _ (by decide))

/-- The four digits of an escape that is no surrogate give its character. -/
theorem foldlM_hex {c : Char} (h : c.toNat < 0x20) (ts : List JsonToken) (seen : List Char) :
    ['\\', 'u', '0', '0', Json.hexDigit (c.toNat / 16), Json.hexDigit c.toNat].foldlM Progress.step?
        ⟨ts, .string (some seen)⟩ = some ⟨ts, .string (some (c :: seen))⟩ := by
  have hvalue : c.toNat / 16 % 16 * 16 + c.toNat % 16 = c.toNat := by omega
  have hlow : ¬ (0xd800 ≤ c.toNat ∧ c.toNat < 0xdc00) := by omega
  have hhigh : ¬ (0xdc00 ≤ c.toNat ∧ c.toNat < 0xe000) := by omega
  have hzero : hexValue? '0' = some 0 := rfl
  simp [Progress.step?, JsonToken.step?, inString?, inEscape?, hzero, hexValue?_hexDigit, hvalue,
    finishHex, hlow, hhigh, Char.ofNat_toNat]

/-- Inside a string, a written character is taken for the character it stands for. -/
theorem foldlM_escapeChar (c : Char) (ts : List JsonToken) (seen : List Char) :
    (Json.escapeChar c).foldlM Progress.step? ⟨ts, .string (some seen)⟩ =
      some ⟨ts, .string (some (c :: seen))⟩ := by
  unfold Json.escapeChar
  split
  next h => subst h; rfl
  split
  next h => subst h; rfl
  split
  next h => subst h; rfl
  split
  next h => subst h; rfl
  split
  next h => subst h; rfl
  split
  next h => exact foldlM_hex h ts seen
  next hquote hslash _ _ _ hplain =>
    simp [Progress.step?, JsonToken.step?, inString?, hquote, hslash, hplain]

/-- Escaped characters are read as the characters. -/
theorem foldlM_escaped (cs : List Char) (ts : List JsonToken) (seen : List Char) :
    (cs.flatMap Json.escapeChar).foldlM Progress.step? ⟨ts, .string (some seen)⟩ =
      some ⟨ts, .string (some (cs.reverse ++ seen))⟩ := by
  induction cs generalizing seen with
  | nil => rfl
  | cons c cs ih =>
      rw [List.flatMap_cons, List.foldlM_append, foldlM_escapeChar]
      simpa using ih (c :: seen)

/-- A written string is one token. -/
theorem complete_string (s : String) : Complete (Json.stringText s).toList [.text (some s)] := by
  intro before
  have hopen : Progress.step? ⟨before, .between⟩ '"' = some ⟨before, .string (some [])⟩ := rfl
  rw [Json.stringText, String.toList_ofList, List.cons_append, List.foldlM_cons, hopen]
  show (s.toList.flatMap Json.escapeChar ++ ['"']).foldlM Progress.step? _ = _
  rw [List.foldlM_append, foldlM_escaped]
  simp [Progress.step?, JsonToken.step?, inString?]

/-! ## Words -/

/-- Characters of a bare word are gathered. -/
theorem foldlM_word {cs : List Char} (h : ∀ c ∈ cs, isWordChar c = true) (ts : List JsonToken)
    (seen : List Char) :
    cs.foldlM Progress.step? ⟨ts, .word seen⟩ = some ⟨ts, .word (cs.reverse ++ seen)⟩ := by
  induction cs generalizing seen with
  | nil => rfl
  | cons c cs ih =>
      rw [List.forall_mem_cons] at h
      rw [List.foldlM_cons]
      simp only [Progress.step?, JsonToken.step?, h.1, if_true]
      simpa using ih h.2 (c :: seen)

private theorem start?_of_isWordChar {c : Char} (h : isWordChar c = true) :
    start? c = some ([], .word [c]) := by
  have hne : ∀ {d : Char}, isWordChar d = false → c ≠ d := by
    rintro d hd rfl
    cases hd.symm.trans h
  have hblank : ¬ (c = ' ' ∨ c = '\t' ∨ c = '\n' ∨ c = '\r') := by
    rintro (rfl | rfl | rfl | rfl) <;> cases h
  rw [start?, if_neg hblank, if_neg (hne rfl), if_neg (hne rfl), if_neg (hne rfl), if_neg (hne rfl),
    if_neg (hne rfl), if_neg (hne rfl), if_neg (hne rfl), if_pos h]

/-- A bare word is one token. -/
theorem reads_word {cs : List Char} (hne : cs ≠ []) (h : ∀ c ∈ cs, isWordChar c = true)
    {t : JsonToken} (ht : word? cs = some t) : Reads cs [t] := by
  intro before
  obtain ⟨c, cs, rfl⟩ := List.exists_cons_of_ne_nil hne
  rw [List.forall_mem_cons] at h
  refine ⟨⟨before, .word (cs.reverse ++ [c])⟩, ?_, .word (by simpa using ht)⟩
  rw [List.foldlM_cons]
  simp only [Progress.step?, JsonToken.step?, start?_of_isWordChar h.1]
  exact foldlM_word h.2 before [c]

/-- The text of a number is the word of that number. -/
theorem word?_number (n : JsonNumber) :
    word? n.text.toList = some (.scalar (some (.number n))) := by
  have hn := n.number?_text
  -- None of the three names can be read as a number.
  have hne : ∀ {cs : List Char}, number? cs = none → n.text.toList ≠ cs := by
    rintro cs hcs rfl
    cases hcs.symm.trans hn
  rw [word?, if_neg (hne rfl), if_neg (hne rfl), if_neg (hne rfl), hn]
  rfl

/-- The text of a number is one token. -/
theorem reads_number (n : JsonNumber) : Reads n.text.toList [.scalar (some (.number n))] := by
  refine reads_word ?_ n.isWordChar_text (word?_number n)
  intro h
  have hn := n.number?_text
  rw [h] at hn
  cases hn

end JsonToken

/-! ## Values -/

namespace Json

open JsonToken

mutual

/-- Scanning a written value gives its tokens. -/
theorem reads_write (j : Json) : Reads j.write.toList j.tokens := by
  cases j with
  | null => exact reads_word (by decide) (List.all_eq_true.mp rfl) rfl
  | bool b => cases b <;> exact reads_word (by decide) (List.all_eq_true.mp rfl) rfl
  | number n => exact reads_number n
  | string s => exact (complete_string s).reads
  | array items =>
      have hitems := reads_intercalate (forall₂_items items)
      have harray := (complete_mark (c := '[') rfl rfl).append (hitems.mark (c := ']') rfl rfl)
      rw [write, String.toList_append, String.toList_append, String.toList_intercalate,
        List.append_assoc]
      exact harray.reads
  | object members =>
      have hmembers := reads_intercalate (forall₂_members members)
      have hobject := (complete_mark (c := '\x7b') rfl rfl).append
        (hmembers.mark (c := '\x7d') rfl rfl)
      rw [write, String.toList_append, String.toList_append, String.toList_intercalate,
        List.append_assoc]
      exact hobject.reads

/-- The items of an array are read one by one. -/
theorem forall₂_items (items : List Json) :
    List.Forall₂ Reads ((writeItems items).map String.toList) (itemTokens items) := by
  cases items with
  | nil => exact .nil
  | cons item items => exact .cons (reads_write item) (forall₂_items items)

/-- The members of an object are read one by one. -/
theorem forall₂_members (members : List (String × Json)) :
    List.Forall₂ Reads ((writeMembers members).map String.toList) (memberTokens members) := by
  cases members with
  | nil => exact .nil
  | cons m members =>
      obtain ⟨key, value⟩ := m
      refine .cons ?_ (forall₂_members members)
      rw [String.toList_append, String.toList_append]
      exact ((complete_string key).reads.mark (c := ':') rfl rfl).append_reads (reads_write value)

end

/-- A written value is scanned as its tokens. -/
theorem scan?_write (j : Json) : JsonToken.scan? j.write = some j.tokens := by
  obtain ⟨p, hp, hs⟩ := j.reads_write []
  rw [JsonToken.scan?, hp]
  simpa using hs.finish?

end Json
end SqlForms
