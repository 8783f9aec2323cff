import SqlForms.Proofs.Lexical.Literals
import SqlForms.Proofs.Values.Decimals

/-! # What a literal tells about its value

    The literal of a value forgets some things about it: an integer and a
    decimal may be the same number, a text and bytes the same string.  What
    it does tell is the *shape* of the value: null, a truth value, a number
    text, a string, a string cast to a type, or an array with the shapes of
    its items in their order.

    A shape can be read off a literal without knowing the value.  Every item
    starts with a string literal or with a word, and the word ends at the
    next comma or bracket (`Front.read`); only the word of an array has items
    after it.  Whatever an item holds, a comma, a bracket, a quote or a cast
    inside its strings is passed over with the string, so a reader that goes
    from item to item finds the shape that was written (`read?_chars`). -/

namespace SqlForms

open Lexical Decimal
open Readability (Ends ends_cons)

/-- What a literal tells about its value. -/
inductive Shape where
  | null
  | bool (b : Bool)
  | number (text : String)
  | string (content : String)
  | typed (type text : String)
  /-- An array that is not empty. -/
  | array (first : Shape) (rest : List Shape)
  /-- Text that goes into the statement as it is, of which nothing is known. -/
  | raw (sql : String)

namespace Value

mutual

/-- The shape of a value. -/
def shape : Value → Shape
  | .null => .null
  | .bool b => .bool b
  | .int n => .number (toString n.toInt)
  | .float x => .number (NumberStyle.plain.write x)
  | .numeric n => .number n
  | .text s => .string s
  | .bytes bs => .string (byteText bs)
  | .date t => .typed "date" t.text
  | .time t => .typed "time" (String.ofList t.sqlChars)
  | .timestamp t => .typed "timestamp" (String.ofList t.sqlChars)
  | .interval i => .typed "interval" i.text
  | .array [] => .string "\x7b\x7d"
  | .array (item :: items) => .array (shape item) (shapes items)
  | .raw sql => .raw sql

/-- The shapes of values. -/
def shapes : List Value → List Shape
  | [] => []
  | v :: vs => shape v :: shapes vs

end

end Value

namespace Shape

/-! ## How a shape is written -/

/-- The word of null. -/
def nullWord : List Char :=
  "NULL".toList

/-- The word before the items of an array. -/
def arrayWord : List Char :=
  "ARRAY".toList

mutual

/-- The characters of a shape. -/
def chars (d : Dialect) : Shape → List Char
  | .null => nullWord
  | .bool b => (Value.boolText b).toList
  | .number text => text.toList
  | .string content => d.quoteChars content.toList
  | .typed type text => d.quoteChars text.toList ++ (':' :: ':' :: type.toList)
  | .array first rest => arrayWord ++ '[' :: (chars d first ++ restChars d rest)
  | .raw sql => sql.toList

/-- What comes after an item of an array: the items after it, and the closing bracket. -/
def restChars (d : Dialect) : List Shape → List Char
  | [] => [']']
  | x :: xs => ',' :: ' ' :: (chars d x ++ restChars d xs)

end

/-- Whether a character ends a word: a comma or a bracket. -/
def isBreak (c : Char) : Bool :=
  c == ',' || c == '[' || c == ']'

/-- Whether a character ends an item. -/
def isItemEnd (c : Char) : Bool :=
  c == ',' || c == ']'

mutual

/-- Whether numbers are numbers, types are words and nothing is raw. -/
def isProper : Shape → Bool
  | .number text => isDecimalNumber text
  | .typed type _ => type.toList.all (!isBreak ·)
  | .array first rest => isProper first && areProper rest
  | .raw _ => false
  | _ => true

/-- Whether shapes are proper. -/
def areProper : List Shape → Bool
  | [] => true
  | x :: xs => isProper x && areProper xs

end

/-! ## How a shape is read -/

/-- The front of an item: the string it starts with, if it starts with one, the word up to the next
    comma or bracket, and what comes after. -/
structure Front where
  content : Option (List Char)
  word : List Char
  rest : List Char

/-- Reads the front of an item. -/
def Front.read (d : Dialect) (cs : List Char) : Front :=
  match literal? d cs with
  | some (content, rest) => ⟨some content, rest.takeWhile (!isBreak ·), rest.dropWhile (!isBreak ·)⟩
  | none => ⟨none, cs.takeWhile (!isBreak ·), cs.dropWhile (!isBreak ·)⟩

/-- The shape that a string and a word make. -/
def scalar? : Option (List Char) → List Char → Option Shape
  | none, word =>
      if word = nullWord then some .null
      else if word = "true".toList then some (.bool true)
      else if word = "false".toList then some (.bool false)
      else if isDecimalNumber (String.ofList word) then some (.number (String.ofList word))
      else none
  | some content, [] => some (.string (String.ofList content))
  | some content, ':' :: ':' :: type =>
      some (.typed (String.ofList type) (String.ofList content))
  | some _, _ => none

mutual

/-- Reads a shape at the front of a text, in a number of steps. -/
def readUpTo? (d : Dialect) : Nat → List Char → Option (Shape × List Char)
  | 0, _ => none
  | n + 1, cs =>
      let front := Front.read d cs
      if front.content = none ∧ front.word = arrayWord then
        match front.rest with
        | '[' :: rest =>
            (readUpTo? d n rest).bind fun first =>
              (readRestUpTo? d n first.2).map fun rest => (.array first.1 rest.1, rest.2)
        | _ => none
      else (scalar? front.content front.word).map fun x => (x, front.rest)

/-- Reads the items after an item up to the closing bracket, in a number of steps. -/
def readRestUpTo? (d : Dialect) : Nat → List Char → Option (List Shape × List Char)
  | 0, _ => none
  | _ + 1, ']' :: rest => some ([], rest)
  | n + 1, ',' :: ' ' :: cs =>
      (readUpTo? d n cs).bind fun x =>
        (readRestUpTo? d n x.2).map fun xs => (x.1 :: xs.1, xs.2)
  | _ + 1, _ => none

end

/-- The shape that a whole text is read as. -/
def read? (d : Dialect) (s : String) : Option Shape :=
  match readUpTo? d (s.toList.length + 1) s.toList with
  | some (x, []) => some x
  | _ => none

variable {d : Dialect}

/-! ## Fronts -/

/-- Whether a text is a word that is not taken for a string: it starts with neither a quote nor an
    `E`, and has no comma or bracket. -/
def isWord : List Char → Bool
  | [] => false
  | c :: cs => c != '\'' && c != 'E' && (c :: cs).all (!isBreak ·)

/-- What starts with neither a quote nor an `E` is no string. -/
theorem literal?_of_ne {c : Char} (hq : c ≠ '\'') (he : c ≠ 'E') (cs : List Char) :
    literal? d (c :: cs) = none := by
  rw [literal?, front?, token?, if_neg hq]
  by_cases hn : c = '"'
  · rw [if_pos hn]
    cases name? cs <;> rfl
  · rw [if_neg hn]
    by_cases hb : c = '$'
    · rw [if_pos hb]
      cases tag? cs with
      | none => rfl
      | some r => cases h : body? r.1 r.2 <;> simp [h]
    · rw [if_neg hb, if_neg fun h => he h.1]

/-- A run without commas and brackets ends where the next of them stands. -/
theorem takeWhile_unbroken {w r : List Char} (hw : w.all (!isBreak ·)) (hr : Ends isBreak r) :
    (w ++ r).takeWhile (!isBreak ·) = w ∧ (w ++ r).dropWhile (!isBreak ·) = r := by
  have hw := List.all_eq_true.mp hw
  rw [List.takeWhile_append_of_pos hw, List.dropWhile_append_of_pos hw]
  cases r with
  | nil => simp
  | cons c r => simp [ends_cons.mp hr]

/-- A word is read up to the next comma or bracket. -/
theorem Front.read_word {w r : List Char} (hw : isWord w) (hr : Ends isBreak r) :
    Front.read d (w ++ r) = ⟨none, w, r⟩ := by
  cases w with
  | nil => cases hw
  | cons c w =>
      simp only [isWord, Bool.and_eq_true, bne_iff_ne] at hw
      obtain ⟨⟨hq, he⟩, hunbroken⟩ := hw
      obtain ⟨htake, hdrop⟩ := takeWhile_unbroken hunbroken hr
      have hnone : literal? d (c :: w ++ r) = none := literal?_of_ne hq he _
      rw [Front.read, hnone]
      simp only [htake, hdrop]

/-- A string is read with the cast after it. -/
theorem Front.read_string {content w r : List Char} (hw : w.all (!isBreak ·))
    (hq : w.head? ≠ some '\'') (hr : Ends isBreak r) :
    Front.read d (d.quoteChars content ++ (w ++ r)) = ⟨some content, w, r⟩ := by
  -- A quote right after the string would be taken for one inside it.
  have hend : (w ++ r).head? ≠ some '\'' := by
    cases w with
    | nil => exact fun h => absurd (hr _ h) (by decide)
    | cons c w => exact hq
  obtain ⟨htake, hdrop⟩ := takeWhile_unbroken hw hr
  rw [Front.read, literal?_quoteChars content hend]
  simp only [htake, hdrop]

/-- A number is a word. -/
theorem isWord_number {text : String} (h : isDecimalNumber text) : isWord text.toList := by
  have hclass : ∀ c ∈ text.toList, c ≠ '\'' ∧ c ≠ 'E' ∧ (!isBreak c) = true := by
    intro c hc
    rcases mem_of_isDecimalNumber h hc with rfl | rfl | rfl | hd
    · decide
    · decide
    · decide
    · have hne : ∀ x ∈ ['\'', 'E', ',', '[', ']'], c ≠ x := by
        rintro x hx rfl
        have hmarks : ['\'', 'E', ',', '[', ']'].all (!isDigit ·) := by decide
        have hx := List.all_eq_true.mp hmarks c hx
        rw [hd] at hx
        cases hx
      simpa [isBreak, and_assoc] using hne
  obtain ⟨c, cs, hcs⟩ := List.exists_cons_of_ne_nil ((isDecimalNumber_iff text).mp h).ne_nil
  have hc := hclass c (hcs ▸ List.mem_cons_self)
  have hall : text.toList.all (!isBreak ·) :=
    List.all_eq_true.mpr fun x hx => (hclass x hx).2.2
  rw [hcs] at hall ⊢
  simp only [isWord, Bool.and_eq_true, bne_iff_ne]
  exact ⟨⟨hc.1, hc.2.1⟩, hall⟩

/-- A number is no other word. -/
theorem scalar?_number {text : String} (h : isDecimalNumber text) :
    scalar? none text.toList = some (.number text) := by
  have hne : ∀ w : String, isDecimalNumber w = false → text.toList ≠ w.toList := by
    intro w hw heq
    rw [String.toList_injective heq, hw] at h
    cases h
  have hnull : text.toList ≠ nullWord := hne "NULL" (by decide)
  rw [scalar?, if_neg hnull, if_neg (hne "true" (by decide)), if_neg (hne "false" (by decide)),
    String.ofList_toList, if_pos h]

/-! ## Reading what was written -/

/-- What ends an item ends a word. -/
theorem ends_isBreak {r : List Char} (h : Ends isItemEnd r) : Ends isBreak r := by
  intro c hc
  have := h c hc
  simp only [isItemEnd, isBreak, Bool.or_eq_true] at this ⊢
  rcases this with h | h
  · exact .inl (.inl h)
  · exact .inr h

/-- What comes after an item of an array ends it. -/
theorem ends_restChars (xs : List Shape) (r : List Char) :
    Ends isItemEnd (restChars d xs ++ r) := by
  cases xs with
  | nil => exact ends_cons.mpr rfl
  | cons x xs => exact ends_cons.mpr rfl

/-- An item without items is read in one step. -/
theorem readUpTo?_scalar {n : Nat} {content : Option (List Char)} {cs word r : List Char}
    {x : Shape} (hfront : Front.read d cs = ⟨content, word, r⟩)
    (hx : scalar? content word = some x) :
    readUpTo? d (n + 1) cs = some (x, r) := by
  -- The word of an array makes no shape of its own.
  have harray : ¬ (content = none ∧ word = arrayWord) := by
    rintro ⟨rfl, rfl⟩
    cases hx
  rw [readUpTo?, hfront, if_neg harray, hx]
  rfl

mutual

/-- A shape is read back, whatever comes after the item it stands for. -/
theorem readUpTo?_chars (x : Shape) (hx : x.isProper) {n : Nat} {r : List Char}
    (hn : (x.chars d).length < n) (hr : Ends isItemEnd r) :
    readUpTo? d n (x.chars d ++ r) = some (x, r) := by
  obtain ⟨n, rfl⟩ : ∃ m, n = m + 1 := ⟨n - 1, by omega⟩
  have hbreak := ends_isBreak hr
  cases x with
  | null =>
      rw [chars]
      exact readUpTo?_scalar (Front.read_word (by decide) hbreak) rfl
  | bool b =>
      rw [chars]
      cases b with
      | true => exact readUpTo?_scalar (Front.read_word (by decide) hbreak) rfl
      | false => exact readUpTo?_scalar (Front.read_word (by decide) hbreak) rfl
  | number text =>
      rw [chars]
      exact readUpTo?_scalar (Front.read_word (isWord_number hx) hbreak) (scalar?_number hx)
  | string content =>
      rw [chars]
      have hfront : Front.read d (d.quoteChars content.toList ++ ([] ++ r)) =
          ⟨some content.toList, [], r⟩ := Front.read_string rfl (by decide) hbreak
      refine readUpTo?_scalar hfront ?_
      rw [scalar?, String.ofList_toList]
  | typed type text =>
      rw [chars, List.append_assoc]
      refine readUpTo?_scalar (Front.read_string ?_ (by simp) hbreak) ?_
      · simpa [isProper, isBreak] using hx
      · rw [scalar?, String.ofList_toList, String.ofList_toList]
  | array first rest =>
      rw [isProper, Bool.and_eq_true] at hx
      rw [chars, List.length_append, List.length_cons, List.length_append] at hn
      have hfront : Front.read d ((chars d (.array first rest)) ++ r) =
          ⟨none, arrayWord, '[' :: (first.chars d ++ (restChars d rest ++ r))⟩ := by
        rw [chars, List.append_assoc, List.cons_append, List.append_assoc]
        exact Front.read_word (by decide) (ends_cons.mpr rfl)
      -- Items are shorter than the array, so the steps that are left are enough for them.
      have hfirst := readUpTo?_chars first hx.1 (n := n) (by omega)
        (ends_restChars (d := d) rest r)
      have hrest := readRestUpTo?_chars rest hx.2 (n := n) (r := r) (by omega)
      rw [readUpTo?, hfront, if_pos ⟨rfl, rfl⟩]
      simp only [hfirst, hrest, Option.bind_some, Option.map_some]
  | raw sql => cases hx

/-- The items after an item are read back. -/
theorem readRestUpTo?_chars (xs : List Shape) (hxs : areProper xs) {n : Nat} {r : List Char}
    (hn : (restChars d xs).length < n) :
    readRestUpTo? d n (restChars d xs ++ r) = some (xs, r) := by
  obtain ⟨n, rfl⟩ : ∃ m, n = m + 1 := ⟨n - 1, by omega⟩
  cases xs with
  | nil => rfl
  | cons x xs =>
      rw [areProper, Bool.and_eq_true] at hxs
      rw [restChars, List.length_cons, List.length_cons, List.length_append] at hn
      have hx := readUpTo?_chars x hxs.1 (n := n) (by omega) (ends_restChars (d := d) xs r)
      have hrest := readRestUpTo?_chars xs hxs.2 (n := n) (r := r) (by omega)
      rw [restChars, List.cons_append, List.cons_append, List.append_assoc, readRestUpTo?]
      simp only [hx, hrest, Option.bind_some, Option.map_some]

end

/-- A shape is read back from its characters. -/
theorem read?_chars {x : Shape} (hx : x.isProper) {s : String} (hs : s.toList = x.chars d) :
    read? d s = some x := by
  have hread := readUpTo?_chars (d := d) x hx (n := (x.chars d).length + 1) (r := []) (by omega)
    (Readability.ends_nil _)
  rw [List.append_nil] at hread
  rw [read?, hs, hread]

end Shape

/-! ## Literals -/

private theorem Literal.toList_string (d : Dialect) (text : String) :
    (Literal.sql d ⟨text, .string⟩).toList = d.quoteChars text.toList :=
  String.toList_ofList

private theorem Literal.toList_typed (d : Dialect) (text type : String) :
    (Literal.sql d ⟨text, .typed type⟩).toList =
      d.quoteChars text.toList ++ ':' :: ':' :: type.toList := by
  have hcast : "::".toList = [':', ':'] := by simp
  show (d.quote text ++ "::" ++ type).toList = _
  rw [String.toList_append, String.toList_append, hcast, Dialect.quote, String.toList_ofList,
    List.append_assoc]
  rfl

/-- Texts that are cast to one type have the same literal only if they are the same. -/
theorem Literal.typed_inj {d : Dialect} {text text' type : String} :
    Literal.sql d ⟨text, .typed type⟩ = Literal.sql d ⟨text', .typed type⟩ ↔ text = text' := by
  refine ⟨fun h => ?_, fun h => by rw [h]⟩
  have hread : ∀ t : String, literal? d (Literal.sql d ⟨t, .typed type⟩).toList =
      some (t.toList, ':' :: ':' :: type.toList) := by
    intro t
    rw [Literal.toList_typed]
    exact literal?_quoteChars t.toList (by simp)
  have htexts := hread text
  rw [h, hread text'] at htexts
  exact (String.toList_inj.mp (Prod.ext_iff.mp (Option.some.inj htexts)).1).symm

namespace Value

variable {d : Dialect}

/-- Values of one type that is cast to have the same literal exactly when they have the same
    text. -/
theorem sql_eq_sql_iff_of_typed {v w : Value} {type s t : String}
    (hv : v.literal d = .ok ⟨s, .typed type⟩) (hw : w.literal d = .ok ⟨t, .typed type⟩) :
    v.sql d = w.sql d ↔ s = t := by
  rw [sql, sql, hv, hw, ← Literal.typed_inj]
  exact ⟨fun h => Except.ok.inj h, fun h => congrArg Except.ok h⟩

/-- Items divided by commas, as each of them stands after the one before it. -/
theorem toList_items (s : String) (ss : List String) :
    (", ".intercalate (s :: ss)).toList =
      s.toList ++ ss.flatMap fun t => ',' :: ' ' :: t.toList := by
  have hcomma : ", ".toList = [',', ' '] := by simp
  rw [String.toList_intercalate, hcomma]
  induction ss generalizing s with
  | nil => simp
  | cons t ss ih =>
      rw [List.map_cons, List.map_cons, List.intercalate_cons_cons, ← List.map_cons, ih,
        List.flatMap_cons]
      simp

mutual

/-- The literal of a value is its shape in writing. -/
theorem toList_literal (v : Value) {l : Literal} (h : v.literal d = .ok l) :
    (l.sql d).toList = v.shape.chars d := by
  cases v with
  | null => rw [← Except.ok.inj h, shape, Shape.chars]; rfl
  | bool b => rw [← Except.ok.inj h, shape, Shape.chars]; rfl
  | int n => rw [← Except.ok.inj h, shape, Shape.chars]; rfl
  | float x =>
      rw [literal] at h
      split at h
      next => rw [← Except.ok.inj h, shape, Shape.chars]; rfl
      next => cases h
  | numeric n =>
      rw [literal] at h
      split at h
      next => rw [← Except.ok.inj h, shape, Shape.chars]; rfl
      next => cases h
  | text s => rw [← Except.ok.inj h, shape, Shape.chars, Literal.toList_string]
  | bytes bs => rw [← Except.ok.inj h, shape, Shape.chars, Literal.toList_string]
  | date t => rw [← Except.ok.inj h, shape, Shape.chars, Literal.toList_typed]
  | time t => rw [← Except.ok.inj h, shape, Shape.chars, Literal.toList_typed]
  | timestamp t => rw [← Except.ok.inj h, shape, Shape.chars, Literal.toList_typed]
  | interval i => rw [← Except.ok.inj h, shape, Shape.chars, Literal.toList_typed]
  | array items =>
      cases items with
      | nil =>
          rw [literal] at h
          rw [← Except.ok.inj h, shape, Shape.chars, Literal.toList_string]
      | cons item items =>
          rw [literal] at h
          obtain ⟨first, hfirst, h⟩ := bind_eq_ok.mp h
          obtain ⟨rest, hrest, h⟩ := bind_eq_ok.mp h
          -- The first item follows the bracket and every other a comma, as a shape lists them.
          have hopen : "ARRAY[".toList = Shape.arrayWord ++ ['['] := by decide
          have hclose : "]".toList = [']'] := by decide
          rw [← Except.ok.inj h, shape, Shape.chars, ← toList_literal item hfirst,
            ← toList_literals items hrest, Literal.sql_verbatim, String.toList_append,
            String.toList_append, toList_items, hopen, hclose]
          simp only [List.append_assoc, List.cons_append, List.nil_append]
  | raw sql => rw [← Except.ok.inj h, shape, Shape.chars]; rfl

/-- The literals of items are what their shapes tell. -/
theorem toList_literals (vs : List Value) {ss : List String} (h : literals d vs = .ok ss) :
    (ss.flatMap fun t => ',' :: ' ' :: t.toList) ++ [']'] = Shape.restChars d (shapes vs) := by
  cases vs with
  | nil =>
      rw [literals] at h
      cases h
      rw [shapes, Shape.restChars]
      rfl
  | cons v vs =>
      rw [literals] at h
      obtain ⟨first, hfirst, h⟩ := bind_eq_ok.mp h
      obtain ⟨rest, hrest, h⟩ := bind_eq_ok.mp h
      cases h
      rw [shapes, Shape.restChars, ← toList_literal v hfirst, ← toList_literals vs hrest]
      simp

end

mutual

/-- A value without raw text that has a literal is of a proper shape. -/
theorem isProper_shape (v : Value) (hv : v.rawFree) {l : Literal} (h : v.literal d = .ok l) :
    v.shape.isProper := by
  cases v with
  | int n => exact (isDecimalNumber_iff _).mpr (numeral_int n.toInt)
  | float x =>
      rw [literal] at h
      split at h
      next hx => exact (isDecimalNumber_iff _).mpr (numeral_float hx)
      next => cases h
  | numeric n =>
      rw [literal] at h
      split at h
      next hn => exact hn
      next => cases h
  | array items =>
      cases items with
      | nil => rw [shape]; rfl
      | cons item items =>
          rw [literal] at h
          obtain ⟨first, hfirst, h⟩ := bind_eq_ok.mp h
          obtain ⟨rest, hrest, -⟩ := bind_eq_ok.mp h
          rw [rawFree, rawFreeAll, Bool.and_eq_true] at hv
          rw [shape, Shape.isProper, Bool.and_eq_true]
          exact ⟨isProper_shape item hv.1 hfirst, areProper_shapes items hv.2 hrest⟩
  | raw sql => cases hv
  | _ => rw [shape]; rfl

/-- Items without raw text that have literals have proper shapes. -/
theorem areProper_shapes (vs : List Value) (hvs : rawFreeAll vs) {ss : List String}
    (h : literals d vs = .ok ss) : Shape.areProper (shapes vs) := by
  cases vs with
  | nil => rw [shapes]; rfl
  | cons v vs =>
      rw [literals] at h
      obtain ⟨first, hfirst, h⟩ := bind_eq_ok.mp h
      obtain ⟨rest, hrest, -⟩ := bind_eq_ok.mp h
      rw [rawFreeAll, Bool.and_eq_true] at hvs
      rw [shapes, Shape.areProper, Bool.and_eq_true]
      exact ⟨isProper_shape v hvs.1 hfirst, areProper_shapes vs hvs.2 hrest⟩

end

/-- The literal of a value is what its shape tells. -/
theorem toList_sql {v : Value} {s : String} (h : v.sql d = .ok s) :
    s.toList = v.shape.chars d := by
  obtain ⟨l, hl, rfl⟩ := map_eq_ok.mp h
  exact toList_literal v hl

/-- The shape of a value without raw text is read off its literal. -/
theorem read?_sql {v : Value} (hv : v.rawFree) {s : String} (h : v.sql d = .ok s) :
    Shape.read? d s = some v.shape := by
  obtain ⟨l, hl, rfl⟩ := map_eq_ok.mp h
  exact Shape.read?_chars (isProper_shape v hv hl) (toList_literal v hl)

/-- The shapes of values are taken one by one. -/
theorem shapes_eq_map (vs : List Value) : shapes vs = vs.map shape := by
  induction vs with
  | nil => rw [shapes]; rfl
  | cons v vs ih => rw [shapes, ih]; rfl

/-- Only an array with items of the same shapes has the shape of an array that is not empty. -/
theorem exists_array_of_shape_eq {w item : Value} {items : List Value}
    (h : w.shape = (array (item :: items)).shape) :
    ∃ ws, w = .array ws ∧ ws.map shape = (item :: items).map shape := by
  rw [shape] at h
  cases w with
  | array ws =>
      cases ws with
      | nil => rw [shape] at h; cases h
      | cons x xs =>
          rw [shape] at h
          obtain ⟨hfirst, hrest⟩ := Shape.array.inj h
          refine ⟨x :: xs, rfl, ?_⟩
          rw [List.map_cons, List.map_cons, hfirst, ← shapes_eq_map, ← shapes_eq_map, hrest]
  | _ => rw [shape] at h; cases h

/-- **Literals keep the structure of values.**  Of values without raw text that have literals, two
    have the same literal exactly if they have the same shape.  So with the literal of an array
    that is not empty only arrays are written, of as many items, of the same shapes in the same
    order. -/
theorem sql_eq_sql_iff_shape_eq (d : Dialect) {v w : Value} (hv : v.rawFree) (hw : w.rawFree)
    {s t : String} (hs : v.sql d = .ok s) (ht : w.sql d = .ok t) :
    (s = t ↔ v.shape = w.shape) ∧
      ∀ vs, v = .array vs → vs ≠ [] → s = t →
        ∃ ws, w = .array ws ∧ ws.map shape = vs.map shape := by
  have hshape : s = t → v.shape = w.shape := by
    rintro rfl
    have hread := read?_sql hv hs
    rw [read?_sql hw ht] at hread
    exact (Option.some.inj hread).symm
  refine ⟨⟨hshape, fun h => ?_⟩, fun vs hvs hne hst => ?_⟩
  · rw [← String.toList_inj, toList_sql hs, toList_sql ht, h]
  · obtain ⟨item, items, rfl⟩ := List.exists_cons_of_ne_nil hne
    exact exists_array_of_shape_eq (hvs ▸ (hshape hst).symm)

/-- An item that imitates items, a cast and a closing bracket, beside an array inside an array; the
    empty array is the string of its braces, and a decimal may be an integer. -/
theorem sql_eq_sql_iff_shape_eq_imitation :
    let v := array [.text "a', 'b'::date]", .array [.null, .array []], .numeric "-1"]
    let w := array [.text "a', 'b'::date]", .array [.null, .text "\x7b\x7d"], .int (-1)]
    let s := "ARRAY['a'', ''b''::date]', ARRAY[NULL, '\x7b\x7d'], -1]"
    v.rawFree ∧ w.rawFree ∧ v.sql .standard = .ok s ∧ w.sql .standard = .ok s ∧
      v.shape = w.shape := by
  intro v w s
  have hs : v.sql .standard = .ok s := rfl
  have ht : w.sql .standard = .ok s := rfl
  exact ⟨rfl, rfl, hs, ht, (sql_eq_sql_iff_shape_eq .standard rfl rfl hs ht).1.mp rfl⟩

end Value
end SqlForms
