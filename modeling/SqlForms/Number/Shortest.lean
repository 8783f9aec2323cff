import SqlForms.Number.Binary64

/-! # The shortest decimal of a number

    A finite number stands for the interval of reals that round to it.  Its
    shortest decimal is the one of fewest digits inside that interval, and
    of those the nearest to the number itself; which of two equally near is
    taken is for the style that writes it.  On each decimal grid only the two
    neighbours of the number need a test: if any point of the grid lies in
    the interval, one of them does. -/

namespace SqlForms

/-- Which of two equally near neighbours is taken. -/
inductive Tie where
  | up
  | toEven
  deriving DecidableEq, Repr

/-- Whether the lower neighbour wins, for a number that lies `rest / den` above it. -/
def Tie.takesLower (tie : Tie) (lower rest den : Nat) : Bool :=
  match tie with
  | .up => decide (2 * rest < den)
  | .toEven => decide (2 * rest < den) || (decide (2 * rest = den) && lower % 2 == 0)

/-- The decimal `digits · 10 ^ exponent`. -/
structure Decimal where
  digits : Nat
  exponent : Int
  deriving DecidableEq, Repr

namespace Decimal

/-- The least number of places by which `num / den` has to be moved left to reach one. -/
def placesBelow (num den : Nat) : Nat → Nat
  | 0 => 0
  | fuel + 1 => if num ≥ den then 0 else placesBelow (num * 10) den fuel + 1

/-- The place `k` with `10 ^ (k - 1) ≤ num / den < 10 ^ k`; no double needs more than four hundred
    places. -/
def leadingPlace (num den : Nat) : Int :=
  if num ≥ den then (Nat.toDigits 10 (num / den)).length
  else 1 - Int.ofNat (placesBelow num den 400)

/-- The same decimal without zeros at its end. -/
def trim : Nat → Decimal → Decimal
  | 0, d => d
  | fuel + 1, d =>
      if d.digits ≠ 0 ∧ d.digits % 10 = 0 then trim fuel ⟨d.digits / 10, d.exponent + 1⟩ else d

/-- The interval of reals that round to a number: the number and both ends over one
    denominator, and whether the ends belong to it. -/
structure Span where
  low : Nat
  value : Nat
  high : Nat
  den : Nat
  closed : Bool

/-- The interval around `m · 2 ^ q`.  Below a power of two the numbers lie twice as close, so the
    lower half is half as wide there. -/
def Span.around (m : Nat) (q : Int) : Span :=
  let narrow := m = 1 <<< 52 ∧ q > -1074
  let (factor, den) := if q ≥ 2 then (1 <<< (q - 2).toNat, 1) else (1, 1 <<< (2 - q).toNat)
  { low := (4 * m - if narrow then 1 else 2) * factor
    value := 4 * m * factor
    high := (4 * m + 2) * factor
    den := den
    closed := m % 2 = 0 }

/-- The neighbour of the number on the grid of `10 ^ unit` that lies in the interval, the nearer
    one if both do. -/
def Span.onGrid? (i : Span) (tie : Tie) (unit : Int) : Option Nat :=
  let up := Nat.pow 10 (-unit).toNat
  let den := i.den * Nat.pow 10 unit.toNat
  let below := i.value * up / den
  let rest := i.value * up - below * den
  let inLow := if i.closed then i.low * up ≤ below * den else i.low * up < below * den
  let inHigh := if i.closed then (below + 1) * den ≤ i.high * up else (below + 1) * den < i.high * up
  if inLow ∧ (¬ inHigh ∨ tie.takesLower below rest den) then some below
  else if inHigh then some (below + 1)
  else none

/-- Tries grids of more and more digits. -/
def Span.search (i : Span) (tie : Tie) (place : Int) (n : Nat) : Nat → Decimal
  | 0 => ⟨i.value / i.den, 0⟩
  | fuel + 1 =>
      match i.onGrid? tie (place - n) with
      | some digits => ⟨digits, place - n⟩
      | none => search i tie place (n + 1) fuel

/-- The shortest decimal of `m · 2 ^ q`; seventeen digits always suffice. -/
def shortest (tie : Tie) (m : Nat) (q : Int) : Decimal :=
  if m = 0 then ⟨0, 0⟩
  else
    let i := Span.around m q
    trim 17 (i.search tie (leadingPlace i.value i.den) 1 17)

end Decimal

/-- The shortest decimal of the magnitude of a finite number. -/
def Binary64.shortest (x : Binary64) (tie : Tie) : Decimal :=
  Decimal.shortest tie x.mantissa x.exponent

end SqlForms
