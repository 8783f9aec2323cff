/-! # Double-precision numbers

    A number is its 64-bit pattern: a sign, an exponent field and a
    fraction.  A finite number is `mantissa · 2 ^ exponent`, and everything
    here works with that pair in exact arithmetic.  Rounding a quotient of
    naturals to the nearest number of a binary format, halves to the even
    neighbour, is what reading a decimal rests on. -/

namespace SqlForms

/-- A double-precision number, by its bit pattern. -/
structure Binary64 where
  bits : UInt64
  deriving DecidableEq, Inhabited

namespace Binary64

/-! ## The parts of a pattern -/

/-- Whether the sign bit is set. -/
def isNegative (x : Binary64) : Bool :=
  decide (1 <<< 63 ≤ x.bits.toNat)

/-- The eleven bits of the exponent. -/
def exponentField (x : Binary64) : Nat :=
  x.bits.toNat / (1 <<< 52) % (1 <<< 11)

/-- The fifty-two bits of the fraction. -/
def fraction (x : Binary64) : Nat :=
  x.bits.toNat % (1 <<< 52)

/-- Whether the number is neither an infinity nor a NaN. -/
def isFinite (x : Binary64) : Bool :=
  x.exponentField != 0x7ff

/-- Whether the pattern is a NaN. -/
def isNaN (x : Binary64) : Bool :=
  !x.isFinite && x.fraction != 0

/-- The integer factor of a finite number. -/
def mantissa (x : Binary64) : Nat :=
  if x.exponentField = 0 then x.fraction else (1 <<< 52) + x.fraction

/-- The power of two of a finite number. -/
def exponent (x : Binary64) : Int :=
  max 1 x.exponentField - 1075

/-- The pattern with the given sign, exponent field and fraction. -/
def ofFields (negative : Bool) (field fraction : Nat) : Binary64 :=
  ⟨UInt64.ofNat ((if negative then 1 <<< 63 else 0) + field <<< 52 + fraction)⟩

/-- Zero, of either sign. -/
def zero (negative : Bool) : Binary64 :=
  ofFields negative 0 0

/-- Infinity, of either sign. -/
def infinity (negative : Bool) : Binary64 :=
  ofFields negative 0x7ff 0

/-- The NaN that reading a number produces. -/
def nan : Binary64 :=
  ofFields false 0x7ff (1 <<< 51)

/-- The number `m · 2 ^ q`, where `m < 2 ^ 53` and `q` is the exponent that rounding chose. -/
def ofParts (negative : Bool) (m : Nat) (q : Int) : Binary64 :=
  if m < 1 <<< 52 then ofFields negative 0 m
  else ofFields negative (q + 1075).toNat (m - (1 <<< 52))

end Binary64

/-! ## Rounding -/

/-- A binary format: how many bits a mantissa has, and the exponents of its last bit. -/
structure BinaryFormat where
  precision : Nat
  minExponent : Int
  maxExponent : Int

namespace BinaryFormat

/-- Double precision. -/
def double : BinaryFormat := ⟨53, -1074, 971⟩

/-- Single precision. -/
def single : BinaryFormat := ⟨24, -149, 104⟩

/-- Divides `num` by `den`, to the nearest natural, halves to even. -/
def divideEven (num den : Nat) : Nat :=
  let quotient := num / den
  let rest := 2 * (num % den)
  if rest < den then quotient
  else if rest > den then quotient + 1
  else quotient + quotient % 2

/-- Writes `num / den / 2 ^ q` as a quotient of naturals. -/
def scale (num den : Nat) (q : Int) : Nat × Nat :=
  if q ≥ 0 then (num, den <<< q.toNat) else (num <<< (-q).toNat, den)

/-- The binary exponent `e` with `2 ^ e ≤ num / den < 2 ^ (e + 1)`. -/
def magnitude (num den : Nat) : Int :=
  let e : Int := Int.ofNat num.log2 - Int.ofNat den.log2
  let (n, d) := scale num den e
  if n ≥ d then e else e - 1

/-- The number `m · 2 ^ q` of the format nearest to `num / den`; nothing when it is too large. -/
def round? (f : BinaryFormat) (num den : Nat) : Option (Nat × Int) :=
  if num = 0 then some (0, f.minExponent)
  else
    let q := max (magnitude num den - (f.precision - 1)) f.minExponent
    let (n, d) := scale num den q
    let m := divideEven n d
    let (m, q) := if m = 1 <<< f.precision then (1 <<< (f.precision - 1), q + 1) else (m, q)
    if q > f.maxExponent then none else some (m, q)

end BinaryFormat
end SqlForms
