import SqlForms.Number.Shortest

/-! # Numbers as text

    A style decides how the shortest digits are written.  The plain style is
    always positional and leaves a whole number without a point, so it is a
    number of any SQL reader; the marked style keeps `.0` on whole numbers
    and turns to an exponent for very small and very large ones.

    Reading takes an optional sign, digits with an optional point, and an
    optional exponent, and rounds once. -/

namespace SqlForms

namespace Decimal

/-- The digits with the point in its place. -/
def positional (d : Decimal) : List Char :=
  let ds := Nat.toDigits 10 d.digits
  let point := ds.length + d.exponent
  if d.exponent ≥ 0 then ds ++ List.replicate d.exponent.toNat '0'
  else if point > 0 then ds.take point.toNat ++ '.' :: ds.drop point.toNat
  else '0' :: '.' :: List.replicate (-point).toNat '0' ++ ds

/-- One digit before the point, and the power of ten after an `e`; `plus` is what stands before a
    power that is not negative. -/
def scientific (plus : List Char) (d : Decimal) : List Char :=
  let ds := Nat.toDigits 10 d.digits
  let power := ds.length + d.exponent - 1
  let mantissa := match ds with
    | [] => []
    | [c] => [c]
    | c :: cs => c :: '.' :: cs
  mantissa ++ 'e' :: ((if power < 0 then [] else plus) ++ (toString power).toList)

end Decimal

/-- How a finite number is written. -/
structure NumberStyle where
  /-- Whole numbers keep `.0`. -/
  keepPoint : Bool
  /-- Where the point of a number written positionally may stand, counted from its first digit;
      anywhere when there is no bound. -/
  pointRange : Option (Int × Int)
  /-- Which of two equally near shortest decimals is written. -/
  tie : Tie
  /-- What stands before an exponent that is not negative. -/
  plus : List Char

namespace NumberStyle

/-- Positional at any size, whole numbers without a point. -/
def plain : NumberStyle := ⟨false, none, .up, []⟩

/-- Positional from `0.0001` up to below `10 ^ 16`, whole numbers with `.0`. -/
def marked : NumberStyle := ⟨true, some (-3, 16), .up, []⟩

/-- Whether a decimal is written positionally. -/
def isPositional (s : NumberStyle) (d : Decimal) : Bool :=
  match s.pointRange with
  | none => true
  | some (low, high) =>
      let point := (Nat.toDigits 10 d.digits).length + d.exponent
      d.digits == 0 || (decide (low ≤ point) && decide (point ≤ high))

/-- The magnitude of a finite number in this style. -/
def magnitude (s : NumberStyle) (d : Decimal) : List Char :=
  if s.isPositional d then
    d.positional ++ if s.keepPoint && d.exponent ≥ 0 then ['.', '0'] else []
  else d.scientific s.plus

/-- A number in this style. -/
def write (s : NumberStyle) (x : Binary64) : String :=
  if x.isNaN then "NaN"
  else
    let sign := if x.isNegative then ['-'] else []
    let body := if x.isFinite then s.magnitude (x.shortest s.tie) else ['i', 'n', 'f']
    String.ofList (sign ++ body)

end NumberStyle

/-! ## Reading -/

namespace Decimal

/-- The natural number that a run of decimal digits denotes. -/
def ofDigits (cs : List Char) : Nat :=
  cs.foldl (fun n c => 10 * n + (c.toNat - '0'.toNat)) 0

/-- Whether a character is one of the ten ASCII digits. -/
def isDigit (c : Char) : Bool :=
  decide ('0' ≤ c) && decide (c ≤ '9')

/-- The number of a format nearest to a decimal.  A decimal far outside the format is settled by
    its order of magnitude alone, so that no large power is computed. -/
def round? (f : BinaryFormat) (d : Decimal) : Option (Nat × Int) :=
  if d.digits = 0 then some (0, f.minExponent)
  else if d.exponent > 400 then none
  else if d.exponent + Int.ofNat (d.digits.log2 / 3) + 1 < -400 then some (0, f.minExponent)
  else f.round? (d.digits * Nat.pow 10 d.exponent.toNat) (Nat.pow 10 (-d.exponent).toNat)

/-- The double nearest to a decimal with a sign; infinite when it is too large. -/
def toBinary64 (negative : Bool) (d : Decimal) : Binary64 :=
  match d.round? .double with
  | some (m, q) => .ofParts negative m q
  | none => .infinity negative

/-- The nearest single-precision number, as the double of the same value. -/
def toSingle (negative : Bool) (d : Decimal) : Binary64 :=
  match d.round? .single with
  | none => .infinity negative
  | some (m, q) =>
      match BinaryFormat.double.round? (m <<< q.toNat) (1 <<< (-q).toNat) with
      | some (m, q) => .ofParts negative m q
      | none => .infinity negative

/-- The exponent after an `e`: an optional sign and at least one digit. -/
def readExponent? (cs : List Char) : Option Int :=
  let (negative, ds) := match cs with
    | '-' :: ds => (true, ds)
    | '+' :: ds => (false, ds)
    | ds => (false, ds)
  if ds ≠ [] ∧ ds.all isDigit then
    let n := Int.ofNat (ofDigits ds)
    some (if negative then -n else n)
  else none

/-- An unsigned decimal: digits, an optional point with digits on at least one side of it, an
    optional exponent. -/
def read? (cs : List Char) : Option Decimal := do
  let whole := cs.takeWhile isDigit
  let rest := cs.dropWhile isDigit
  let (places, rest) := match rest with
    | '.' :: rest => (rest.takeWhile isDigit, rest.dropWhile isDigit)
    | rest => ([], rest)
  if whole = [] ∧ places = [] then none
  let power ← match rest with
    | [] => some 0
    | c :: rest => if c = 'e' ∨ c = 'E' then readExponent? rest else none
  return ⟨ofDigits (whole ++ places), power - places.length⟩

end Decimal

/-- Reads a number text: a decimal, or one of the words for an infinity or a NaN in any case, with
    an optional sign; `nearest` rounds the decimal. -/
def Binary64.read? (nearest : Bool → Decimal → Binary64) (s : String) : Option Binary64 :=
  let (negative, cs) := match s.toList with
    | '-' :: cs => (true, cs)
    | '+' :: cs => (false, cs)
    | cs => (false, cs)
  match String.ofList (cs.map Char.toLower) with
  | "inf" => some (.infinity negative)
  | "infinity" => some (.infinity negative)
  | "nan" => some .nan
  | _ => (Decimal.read? cs).map (nearest negative)

end SqlForms
