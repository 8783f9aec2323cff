/-! # String dialects and configuration

    PostgreSQL reads a string literal in one of two ways.  In the backslash
    dialect a literal opens with `E'` and a backslash takes the character
    after it literally; in the standard dialect a backslash is an ordinary
    character.  In both a quote inside the literal is doubled.  A binary
    literal is a string whose bytes were first written as printable
    characters and octal escapes. -/

namespace SqlForms

/-- How string literals are read. -/
inductive Dialect where
  | backslash
  | standard
  deriving DecidableEq, Repr, Inhabited

/-- How statements are spelled. -/
structure Config where
  /-- The dialect of string literals. -/
  strings : Dialect := .backslash
  /-- Whether names are wrapped in double quotes. -/
  quoteNames : Bool := false
  deriving DecidableEq, Repr, Inhabited

namespace Dialect

/-- How a character is written inside a literal. -/
def escapeChar (d : Dialect) (c : Char) : List Char :=
  if c = '\'' then ['\'', '\'']
  else if c = '\\' ∧ d = .backslash then ['\\', '\\']
  else [c]

/-- What opens a literal. -/
def opening : Dialect → List Char
  | .backslash => ['E', '\'']
  | .standard => ['\'']

/-- The literal of a text, as characters. -/
def quoteChars (d : Dialect) (cs : List Char) : List Char :=
  d.opening ++ cs.flatMap d.escapeChar ++ ['\'']

/-- The literal of a text. -/
def quote (d : Dialect) (s : String) : String :=
  String.ofList (d.quoteChars s.toList)

end Dialect

/-! ## Bytes -/

/-- A byte as itself, or as a backslash and three octal digits when it is not printable, a quote or
    a backslash. -/
def byteChars (b : UInt8) : List Char :=
  let n := b.toNat
  if n < 32 ∨ 126 < n ∨ n = '\''.toNat ∨ n = '\\'.toNat then
    ['\\', Nat.digitChar (n / 64), Nat.digitChar (n / 8 % 8), Nat.digitChar (n % 8)]
  else [Char.ofNat n]

/-- Bytes as printable characters and octal escapes. -/
def byteText (bytes : List UInt8) : String :=
  String.ofList (bytes.flatMap byteChars)

end SqlForms
