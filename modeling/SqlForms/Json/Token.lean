import SqlForms.Json.Basic

/-! # Tokens of a JSON text

    A text is scanned one character at a time.  The scanner is between
    tokens, inside a bare word (a number or one of the three names), inside
    a string, or inside an escape of a string; nothing is looked at twice,
    so scanning is one pass over the characters.

    A token can be well formed and still stand for nothing: a number beyond
    every double, and a string in which half a surrogate pair stands alone.
    Such a token has no content, and whoever takes the token decides whether
    that matters. -/

namespace SqlForms

/-- A token of a JSON text. -/
inductive JsonToken where
  | openArray
  | closeArray
  | openObject
  | closeObject
  | comma
  | colon
  /-- A string, without its content when that is not a text. -/
  | text (s : Option String)
  /-- A number or one of the three names; a number too large has no value. -/
  | scalar (j : Option Json)

namespace JsonToken

/-! ## Bare words -/

/-- The number of a decimal.  An integer outside both words, a fraction, an exponent and a negative
    zero make it a double, which has to be finite; `integral` says that only digits were written. -/
def numberOf? (negative integral : Bool) (d : Decimal) : Option JsonNumber :=
  let n : Int := if negative then -(d.digits : Int) else d.digits
  match if integral ∧ ¬(negative ∧ n = 0) then JsonNumber.ofInt? n else none with
  | some integer => some integer
  | none =>
      let x := d.toBinary64 negative
      if h : x.isFinite = true then some (.float x h) else none

/-- A number as JSON writes it: no leading zero, digits on both sides of a point.  The number
    itself is missing when it is too large. -/
def number? (cs : List Char) : Option (Option JsonNumber) := do
  let (negative, cs) := match cs with
    | '-' :: cs => (true, cs)
    | cs => (false, cs)
  let whole := cs.takeWhile Decimal.isDigit
  let rest := cs.dropWhile Decimal.isDigit
  if whole = [] ∨ (whole.length > 1 ∧ whole.head? = some '0') then none
  let d ← match rest with
    | '.' :: c :: _ => if Decimal.isDigit c then Decimal.read? cs else none
    | '.' :: _ => none
    | _ => Decimal.read? cs
  return numberOf? negative rest.isEmpty d

/-- What a bare word stands for. -/
def word? (cs : List Char) : Option JsonToken :=
  if cs = ['n', 'u', 'l', 'l'] then some (.scalar (some .null))
  else if cs = ['t', 'r', 'u', 'e'] then some (.scalar (some (.bool true)))
  else if cs = ['f', 'a', 'l', 's', 'e'] then some (.scalar (some (.bool false)))
  else (number? cs).map fun n => .scalar (n.map .number)

/-- Whether a character continues a bare word. -/
def isWordChar (c : Char) : Bool :=
  c.isAlphanum || c == '+' || c == '-' || c == '.'

/-! ## Scanning -/

/-- Where the scanner stands.  Characters read so far are kept last first; a string that can no
    longer be a text keeps none. -/
inductive Scan where
  /-- Between tokens. -/
  | between
  /-- Inside a bare word. -/
  | word (seen : List Char)
  /-- Inside a string. -/
  | string (seen : Option (List Char))
  /-- After a backslash inside a string. -/
  | escape (seen : Option (List Char))
  /-- Inside the four hexadecimal digits of an escape, after the leading surrogate `high` if there
      was one. -/
  | hex (seen : Option (List Char)) (high : Option Nat) (value missing : Nat)
  /-- After a leading surrogate, where a backslash should follow. -/
  | low (seen : Option (List Char)) (high : Nat)
  /-- After a leading surrogate and a backslash, where a `u` should follow. -/
  | lowMark (seen : Option (List Char)) (high : Nat)

/-- The value of a hexadecimal digit. -/
def hexValue? (c : Char) : Option Nat :=
  if '0' ≤ c ∧ c ≤ '9' then some (c.toNat - '0'.toNat)
  else if 'a' ≤ c ∧ c ≤ 'f' then some (c.toNat - 'a'.toNat + 10)
  else if 'A' ≤ c ∧ c ≤ 'F' then some (c.toNat - 'A'.toNat + 10)
  else none

/-- The scanner after a character between tokens, with the token that the character is. -/
def start? (c : Char) : Option (List JsonToken × Scan) :=
  if c = ' ' ∨ c = '\t' ∨ c = '\n' ∨ c = '\r' then some ([], .between)
  else if c = '[' then some ([.openArray], .between)
  else if c = ']' then some ([.closeArray], .between)
  else if c = '\x7b' then some ([.openObject], .between)
  else if c = '\x7d' then some ([.closeObject], .between)
  else if c = ',' then some ([.comma], .between)
  else if c = ':' then some ([.colon], .between)
  else if c = '"' then some ([], .string (some []))
  else if isWordChar c then some ([], .word [c])
  else none

/-- The character that a short escape stands for. -/
def shortEscape? (c : Char) : Option Char :=
  if c = '"' ∨ c = '\\' ∨ c = '/' then some c
  else if c = 'b' then some '\x08'
  else if c = 'f' then some '\x0c'
  else if c = 'n' then some '\n'
  else if c = 'r' then some '\r'
  else if c = 't' then some '\t'
  else none

/-- The scanner after all four hexadecimal digits of an escape: a leading surrogate waits for a
    trailing one, and a string where either stands alone is no text. -/
def finishHex (seen : Option (List Char)) (high : Option Nat) (value : Nat) : Scan :=
  match high with
  | some h =>
      if 0xdc00 ≤ value ∧ value < 0xe000 then
        let c := Char.ofNat (0x10000 + (h - 0xd800) * 0x400 + (value - 0xdc00))
        .string (seen.map (c :: ·))
      else .string none
  | none =>
      if 0xd800 ≤ value ∧ value < 0xdc00 then .low seen value
      else if 0xdc00 ≤ value ∧ value < 0xe000 then .string none
      else .string (seen.map (Char.ofNat value :: ·))

/-- The scanner after a character inside a string. -/
def inString? (seen : Option (List Char)) (c : Char) : Option (List JsonToken × Scan) :=
  if c = '"' then some ([.text (seen.map fun cs => String.ofList cs.reverse)], .between)
  else if c = '\\' then some ([], .escape seen)
  else if c.toNat < 0x20 then none
  else some ([], .string (seen.map (c :: ·)))

/-- The scanner after the character that follows a backslash inside a string. -/
def inEscape? (seen : Option (List Char)) (c : Char) : Option (List JsonToken × Scan) :=
  if c = 'u' then some ([], .hex seen none 0 4)
  else (shortEscape? c).map fun e => ([], .string (seen.map (e :: ·)))

/-- One character further: the tokens that end with it, and where the scanner then stands. -/
def step? (s : Scan) (c : Char) : Option (List JsonToken × Scan) :=
  match s with
  | .between => start? c
  | .word seen =>
      if isWordChar c then some ([], .word (c :: seen))
      else do
        let token ← word? seen.reverse
        let (tokens, next) ← start? c
        return (token :: tokens, next)
  | .string seen => inString? seen c
  | .escape seen => inEscape? seen c
  | .hex seen high value missing => do
      let digit ← hexValue? c
      let value := value * 16 + digit
      if missing = 1 then return ([], finishHex seen high value)
      else return ([], .hex seen high value (missing - 1))
  | .low seen high => if c = '\\' then some ([], .lowMark seen high) else inString? none c
  | .lowMark seen high => if c = 'u' then some ([], .hex seen (some high) 0 4) else inEscape? none c

/-- The tokens read so far, last first, and where the scanner stands. -/
structure Progress where
  tokens : List JsonToken
  scan : Scan

/-- One character further. -/
def Progress.step? (p : Progress) (c : Char) : Option Progress :=
  (JsonToken.step? p.scan c).map fun (tokens, next) => ⟨tokens.reverse ++ p.tokens, next⟩

/-- The tokens of the whole text, if it may end here. -/
def Progress.finish? (p : Progress) : Option (List JsonToken) :=
  match p.scan with
  | .between => some p.tokens.reverse
  | .word seen => (word? seen.reverse).map fun token => (token :: p.tokens).reverse
  | _ => none

/-- The tokens of a text. -/
def scan? (s : String) : Option (List JsonToken) := do
  let p ← s.toList.foldlM Progress.step? ⟨[], .between⟩
  p.finish?

end JsonToken
end SqlForms
