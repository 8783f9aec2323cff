import SqlForms.Dialect
import SqlForms.Form.Function
import SqlForms.Text.Classes

/-! # A scanner of statements

    A reader that knows nothing of the forms: it only tells apart what stands
    inside a string, a quoted name or a dollar-quoted body from what stands
    outside, and matches brackets outside.

    * A string runs to the first quote that is not doubled; where a backslash
      escapes, it takes the next character with it, and the `E` before the
      opening quote belongs to the string.
    * A quoted name runs to the next double quote.
    * A body runs from its fence, `$tag$`, to the next copy of the fence; the
      tag is empty or starts with a letter.

    A text that ends inside one of these has no tokens at all. -/

namespace SqlForms.Lexical

/-! ## Tokens -/

/-- What a statement is made of. -/
inductive Token where
  /-- A character outside of everything else. -/
  | char (c : Char)
  /-- A string, as it is written between its quotes. -/
  | string (written : List Char)
  /-- A name in double quotes. -/
  | name (content : List Char)
  /-- A body between two copies of a fence. -/
  | body (tag content : List Char)
  deriving DecidableEq, Repr

/-- What a string holds up to the quote that closes it, and what comes after. -/
def string? (d : Dialect) : List Char → Option (List Char × List Char)
  | [] => none
  | [c] => if c = '\'' then some ([], []) else none
  | c :: c' :: cs =>
      if c = '\'' then
        if c' = '\'' then (string? d cs).map fun r => (c :: c' :: r.1, r.2)
        else some ([], c' :: cs)
      else if c = '\\' ∧ d = .backslash then
        (string? d cs).map fun r => (c :: c' :: r.1, r.2)
      else (string? d (c' :: cs)).map fun r => (c :: r.1, r.2)

/-- What a quoted name holds up to the double quote that closes it, and what comes after. -/
def name? : List Char → Option (List Char × List Char)
  | [] => none
  | c :: cs => if c = '"' then some ([], cs) else (name? cs).map fun r => (c :: r.1, r.2)

/-- Whether a character may stand in the tag of a fence. -/
def isTagChar (c : Char) : Bool :=
  Text.isAlphabetic c || Text.isNumeral c || c == '_'

/-- The dollar sign is no character of a tag. -/
theorem isTagChar_dollar : isTagChar '$' = false := by
  decide +kernel

/-- A digit may stand in a tag. -/
theorem isTagChar_of_isDigit {c : Char} (h : c.isDigit) : isTagChar c := by
  have hr : (0x30, 0x39) ∈ Text.numeralRanges := List.mem_cons_self
  have hn : Text.isNumeral c = true :=
    Text.inRanges_iff.mpr ⟨_, hr, Char.isDigit_iff_toNat.mp h⟩
  simp [isTagChar, hn]

/-- The fence with the given tag. -/
def fence (tag : List Char) : List Char :=
  '$' :: tag ++ ['$']

/-- The tag of a fence whose dollar sign was read, and what comes after the fence. -/
def tag? (cs : List Char) : Option (List Char × List Char) :=
  match cs.dropWhile isTagChar with
  | [] => none
  | c :: rest =>
      if c = '$' ∧ ((cs.takeWhile isTagChar).head?.all Text.isAlphabetic) then
        some (cs.takeWhile isTagChar, rest)
      else none

/-- What a body holds up to its closing fence, and what comes after. -/
def body? (tag cs : List Char) : Option (List Char × List Char) :=
  (Function.indexOf? (fence tag) cs).map fun n =>
    (cs.take n, cs.drop (n + (fence tag).length))

/-- The token that starts with a character, and what comes after it. -/
def token? (d : Dialect) (c : Char) (cs : List Char) : Option (Token × List Char) :=
  if c = '\'' then (string? d cs).map fun r => (.string r.1, r.2)
  else if c = '"' then (name? cs).map fun r => (.name r.1, r.2)
  else if c = '$' then
    match tag? cs with
    | some (tag, rest) => (body? tag rest).map fun r => (.body tag r.1, r.2)
    | none => some (.char c, cs)
  else if c = 'E' ∧ d = .backslash ∧ cs.head? = some '\'' then
    (string? d cs.tail).map fun r => (.string r.1, r.2)
  else some (.char c, cs)

/-- The token at the front of a text, and what comes after it. -/
def front? (d : Dialect) : List Char → Option (Token × List Char)
  | [] => none
  | c :: cs => token? d c cs

/-- After a string there is less to read. -/
theorem string?_length {d : Dialect} {cs : List Char} {r : List Char × List Char}
    (h : string? d cs = some r) : r.2.length < cs.length := by
  fun_induction string? d cs generalizing r with
  | case1 => cases h
  | case2 => cases h; simp
  | case3 => cases h
  | case4 cs ih =>
      obtain ⟨r', hr, rfl⟩ := Option.map_eq_some_iff.mp h
      exact Nat.lt_succ_of_lt (Nat.lt_succ_of_lt (ih (r := r') hr))
  | case5 => cases h; simp
  | case6 c c' cs _ _ ih =>
      obtain ⟨r', hr, rfl⟩ := Option.map_eq_some_iff.mp h
      exact Nat.lt_succ_of_lt (Nat.lt_succ_of_lt (ih (r := r') hr))
  | case7 c c' cs _ _ ih =>
      obtain ⟨r', hr, rfl⟩ := Option.map_eq_some_iff.mp h
      exact Nat.lt_succ_of_lt (ih (r := r') hr)

/-- After a quoted name there is less to read. -/
theorem name?_length {cs : List Char} {r : List Char × List Char} (h : name? cs = some r) :
    r.2.length < cs.length := by
  induction cs generalizing r with
  | nil => cases h
  | cons c cs ih =>
      rw [name?] at h
      split at h
      · cases h; simp
      · obtain ⟨r', hr, rfl⟩ := Option.map_eq_some_iff.mp h
        exact Nat.lt_succ_of_lt (ih (r := r') hr)

/-- After a tag there is less to read. -/
theorem tag?_length {cs tag rest : List Char} (h : tag? cs = some (tag, rest)) :
    rest.length < cs.length := by
  have hdrop := (List.dropWhile_suffix isTagChar (l := cs)).length_le
  rw [tag?] at h
  split at h
  · cases h
  next c rest hc =>
    rw [hc, List.length_cons] at hdrop
    split at h
    · cases h; exact hdrop
    · cases h

/-- A token takes at least its first character. -/
theorem token?_length {d : Dialect} {c : Char} {cs : List Char} {r : Token × List Char}
    (h : token? d c cs = some r) : r.2.length ≤ cs.length := by
  rw [token?] at h
  split at h
  · obtain ⟨r', hr, rfl⟩ := Option.map_eq_some_iff.mp h
    exact Nat.le_of_lt (string?_length hr)
  split at h
  · obtain ⟨r', hr, rfl⟩ := Option.map_eq_some_iff.mp h
    exact Nat.le_of_lt (name?_length hr)
  split at h
  · split at h
    next tag rest ht =>
      obtain ⟨r', hr, rfl⟩ := Option.map_eq_some_iff.mp h
      obtain ⟨n, -, rfl⟩ := Option.map_eq_some_iff.mp hr
      have := tag?_length ht
      simp only [List.length_drop]
      omega
    next => cases h; exact Nat.le_refl _
  split at h
  · obtain ⟨r', hr, rfl⟩ := Option.map_eq_some_iff.mp h
    have hs := string?_length hr
    have ht := List.length_tail (l := cs)
    show r'.2.length ≤ cs.length
    omega
  · cases h; exact Nat.le_refl _

/-- The tokens of a text; none if it ends inside a string, a quoted name or a body. -/
def scan (d : Dialect) : List Char → Option (List Token)
  | [] => some []
  | c :: cs =>
      match _h : token? d c cs with
      | none => none
      | some r => (scan d r.2).map (r.1 :: ·)
termination_by cs => cs.length
decreasing_by exact Nat.lt_succ_of_le (token?_length _h)

@[simp] theorem scan_nil (d : Dialect) : scan d [] = some [] := by
  rw [scan]

/-- After one token the rest is scanned. -/
theorem scan_cons {d : Dialect} {c : Char} {cs rest : List Char} {t : Token}
    (h : token? d c cs = some (t, rest)) : scan d (c :: cs) = (scan d rest).map (t :: ·) := by
  rw [scan]
  split
  next hn => rw [h] at hn; cases hn
  next r hr => rw [h] at hr; cases hr; rfl

/-! ## Brackets -/

/-- The brackets that still have to close, after a character: one that opens puts its partner
    first, one that closes has to be the first. -/
def bracket (c : Char) (open_ : List Char) : Option (List Char) :=
  if c = '(' then some (')' :: open_)
  else if c = '[' then some (']' :: open_)
  else if c = ')' ∨ c = ']' then
    match open_ with
    | top :: open_ => if top = c then some open_ else none
    | [] => none
  else some open_

/-- The brackets that still have to close after a token. -/
def Token.nest (open_ : List Char) : Token → Option (List Char)
  | .char c => bracket c open_
  | _ => some open_

/-- The brackets that still have to close after tokens. -/
def nest (open_ : List Char) : List Token → Option (List Char)
  | [] => some open_
  | t :: ts => (t.nest open_).bind fun open_ => nest open_ ts

/-- Tokens one after the other act on the brackets one after the other. -/
@[simp] theorem nest_append (open_ : List Char) (ts ts' : List Token) :
    nest open_ (ts ++ ts') = (nest open_ ts).bind fun open_ => nest open_ ts' := by
  induction ts generalizing open_ with
  | nil => rfl
  | cons t ts ih =>
      rw [List.cons_append, nest, nest]
      cases t.nest open_ with
      | none => rfl
      | some open_ => exact ih open_

/-- Whether a text ends outside of every string, quoted name and body, with its brackets nested
    and closed. -/
def isClosed (d : Dialect) (s : String) : Bool :=
  match scan d s.toList with
  | some ts => nest [] ts == some []
  | none => false

/-! ## Skeletons -/

/-- The characters of a token, with one mark in the place of a string. -/
def Token.skeleton : Token → List (Option Char)
  | .char c => [some c]
  | .string _ => [none]
  | .name content => ('"' :: content ++ ['"']).map some
  | .body tag content => (fence tag ++ content ++ fence tag).map some

/-- What is left of a text when one mark stands for every string. -/
def skeleton (d : Dialect) (s : String) : Option (List (Option Char)) :=
  (scan d s.toList).map fun ts => ts.flatMap Token.skeleton

end SqlForms.Lexical
