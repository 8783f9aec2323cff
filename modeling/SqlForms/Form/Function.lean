import SqlForms.Layout
import SqlForms.TypeName

/-! # Function definitions

    The body of a function stands between two copies of a delimiter that
    must not occur in it, nor come about where the body meets the closing
    copy.  The delimiters `$$`, `$body$`, `$body1$`, … are tried in turn.
    Two different ones cannot start at the same place of a text, so one of
    them fits before there are more of them than characters. -/

namespace SqlForms.Function

open Layout (Within)

/-! ## Delimiters -/

/-- Where a text first occurs in another. -/
def indexOf? (pattern : List Char) : List Char → Option Nat
  | [] => if pattern.isEmpty then some 0 else none
  | c :: cs =>
      if pattern.isPrefixOf (c :: cs) then some 0 else (indexOf? pattern cs).map (· + 1)

/-- Whether a delimiter after a body is the first one met. -/
def closes (delimiter body : List Char) : Bool :=
  indexOf? delimiter (body ++ delimiter) == some body.length

/-- The delimiter of the given number after the plain one. -/
def numberedDelimiter (n : Nat) : List Char :=
  ['$', 'b', 'o', 'd', 'y'] ++ (if n = 0 then [] else Nat.toDigits 10 n) ++ ['$']

/-- The first delimiter from `n` on that closes the body. -/
def searchDelimiter (body : List Char) (n : Nat) : Nat → List Char
  | 0 => numberedDelimiter n
  | fuel + 1 =>
      if closes (numberedDelimiter n) body then numberedDelimiter n
      else searchDelimiter body (n + 1) fuel

/-- The first delimiter that closes the body. -/
def delimiter (body : List Char) : List Char :=
  if closes ['$', '$'] body then ['$', '$'] else searchDelimiter body 0 body.length

/-- A body between its delimiters. -/
def quote (body : String) : String :=
  let d := delimiter body.toList
  String.ofList (d ++ body.toList ++ d)

/-! ## The form -/

/-- How the result of a function may change. -/
def stability (e : Expr) : Except Error String :=
  match e.keyword? with
  | some "immutable" => .ok "IMMUTABLE"
  | some "stable" => .ok "STABLE"
  | some "volatile" => .ok "VOLATILE"
  | _ => .error (.definition (.stability e))

/-- The text of a body. -/
def bodyText (e : Expr) : Except Error String :=
  match e.text? with
  | some body => .ok body
  | none => .error (.definition (.functionBody e))

/-- The definition of a function: its name, argument types, result type, stability and body. -/
def createFunction : List Expr → Layout
  | [name, .list arguments, returns, stable, body] =>
      .ofExcept do
        let body ← bodyText body
        let stable ← stability stable
        let types ← arguments.mapM TypeName.ofExpr
        return ["CREATE OR REPLACE FUNCTION ", .part name, "(", ", ".intercalate types,
          ") RETURNS ", .ofExcept (TypeName.ofExpr returns), " LANGUAGE SQL ", stable, " AS ",
          quote body]
  | [_, arguments, _, _, _] => .refuse (.definition (.argumentTypes arguments))
  | es => .arity "create-function" (.exactly 5) es

/-- A function definition mentions its operands only. -/
theorem createFunction_within (es : List Expr) : Within es (createFunction es) := by
  unfold createFunction
  split
  next name arguments returns stable body =>
    refine Layout.within_ofExcept fun l hl e he => ?_
    obtain ⟨b, -, hl⟩ := bind_eq_ok.mp hl
    obtain ⟨s, -, hl⟩ := bind_eq_ok.mp hl
    obtain ⟨types, -, hl⟩ := bind_eq_ok.mp hl
    cases hl
    exact .operand (by simp_all)
  · intro e h; simp at h
  · intro e h; simp at h

end SqlForms.Function
