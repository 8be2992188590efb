import CartLedger.Text.Decimal

/-! Binary fractions of double precision.

A number with a fraction or an exponent is kept as the binary64 value nearest to what
was written. A value is `mantissa · 2 ^ exponent` with a mantissa below `2 ^ 53`, so
every rule here is arithmetic on naturals: `nearest` rounds a quotient, ties to the
even neighbour, and `shortest` finds the fewest digits that round back. -/
namespace CartLedger.Json

/-- The magnitude of a finite binary64 number. -/
structure Binary64 where
  mantissa : Nat
  exponent : Int
  deriving DecidableEq, Repr, Inhabited

namespace Binary64

/-- Mantissas stay below this, `2 ^ 53`. -/
def mantissaLimit : Nat := 0x20000000000000

def zero : Binary64 := ⟨0, -1074⟩

def isZero (x : Binary64) : Bool := x.mantissa == 0

/-! ### Rounding -/

/-- `num / den` to the nearest natural, a half to the even neighbour. -/
def roundQuotient (num den : Nat) : Nat :=
  let q := num / den
  let r := num % den
  if 2 * r > den ∨ (2 * r = den ∧ q % 2 = 1) then q + 1 else q

/-- `num / den · 2 ^ (-e)` as a quotient of naturals. -/
def scaled (num den : Nat) (e : Int) : Nat × Nat :=
  if 0 ≤ e then (num, den <<< e.toNat) else (num <<< (-e).toNat, den)

/-- The least exponent at which `num / den` has a whole part below the limit. -/
def fitExponent (num den : Nat) : Int :=
  let guess := (Nat.log2 num : Int) - Nat.log2 den - 53
  let (n, d) := scaled num den guess
  max (-1074) (if n / d < mantissaLimit then guess else guess + 1)

/-- The number nearest to `num / den`; nothing beyond the largest finite one. -/
def nearest (num den : Nat) : Option Binary64 :=
  if num = 0 then some zero
  else
    let e := fitExponent num den
    let (n, d) := scaled num den e
    let m := roundQuotient n d
    let (m, e) := if m = mantissaLimit then (m / 2, e + 1) else (m, e)
    if e > 971 then none else some ⟨m, e⟩

/-- The value as a quotient of naturals. -/
def quotient (x : Binary64) : Nat × Nat :=
  if 0 ≤ x.exponent then (x.mantissa <<< x.exponent.toNat, 1)
  else (x.mantissa, 1 <<< (-x.exponent).toNat)

def mul? (x y : Binary64) : Option Binary64 :=
  let (a, b) := x.quotient
  let (c, d) := y.quotient
  nearest (a * c) (b * d)

def div (x y : Binary64) : Binary64 :=
  let (a, b) := x.quotient
  let (c, d) := y.quotient
  (nearest (a * d) (b * c)).getD zero

def ofNat (n : Nat) : Binary64 := (nearest n 1).getD zero

/-- `10 ^ n`, rounded, for `n ≤ 308`. -/
def powerOfTen (n : Nat) : Binary64 := ofNat (Nat.pow 10 n)

/-- `significand · 10 ^ exponent`: the significand is rounded first, then multiplied or
divided by a rounded power of ten, by `10 ^ 308` as often as a smaller exponent asks.
Nothing when the result is not finite. -/
def scaleTen (x : Binary64) (exponent : Int) : Nat → Option Binary64
  | 0 => some zero
  | rounds + 1 =>
    if exponent.natAbs ≤ 308 then
      if 0 ≤ exponent then x.mul? (powerOfTen exponent.toNat)
      else some (x.div (powerOfTen (-exponent).toNat))
    else if x.isZero then some x
    else if 0 ≤ exponent then none
    else scaleTen (x.div (powerOfTen 308)) (exponent + 308) rounds

/-- Four rounds bring any 64-bit significand to zero. -/
def ofScientific (significand : Nat) (exponent : Int) : Option Binary64 :=
  scaleTen (ofNat significand) exponent 5

/-! ### Shortest numerals -/

/-- `v · 10 ^ (-k)` for a quotient `v`. -/
def shiftTen (v : Nat × Nat) (k : Int) : Nat × Nat :=
  if 0 ≤ k then (v.1, v.2 * Nat.pow 10 k.toNat) else (v.1 * Nat.pow 10 (-k).toNat, v.2)

/-- The quotients half way to the two neighbours. -/
def bounds (x : Binary64) : (Nat × Nat) × (Nat × Nat) :=
  let lower := if 2 * x.mantissa = mantissaLimit ∧ x.exponent > -1074 then
      (⟨4 * x.mantissa - 1, x.exponent - 2⟩ : Binary64)
    else ⟨2 * x.mantissa - 1, x.exponent - 1⟩
  let upper : Binary64 := ⟨2 * x.mantissa + 1, x.exponent - 1⟩
  (lower.quotient, upper.quotient)

/-- Whether `d · 10 ^ k` rounds to `x`; the ends of the interval do when the mantissa
is even. -/
def readsBack (x : Binary64) (d : Nat) (k : Int) : Bool :=
  let (lower, upper) := x.bounds
  let (ln, ld) := shiftTen lower k
  let (un, ud) := shiftTen upper k
  if x.mantissa % 2 = 0 then ln ≤ d * ld && d * ud ≤ un
  else ln < d * ld && d * ud < un

/-- The exponent `p` with `10 ^ (p - 1) ≤ v < 10 ^ p`, for positive `v`. -/
def magnitude (v : Nat × Nat) : Int :=
  let guess := ((Text.Decimal.digits v.1).length : Int) - (Text.Decimal.digits v.2).length
  let (n, d) := shiftTen v guess
  if d ≤ n then guess + 1 else guess

/-- Of the two neighbours of `x` among multiples of `10 ^ k`, the nearer one that reads
back; of two at one distance the even one. -/
def atGrid (x : Binary64) (k : Int) : Option Nat :=
  let (n, d) := shiftTen x.quotient k
  let low := n / d
  let twice := 2 * (n % d)
  let nearerLow := twice < d || (twice = d && low % 2 = 0)
  let first := if nearerLow then low else low + 1
  let second := if nearerLow then low + 1 else low
  if x.readsBack first k then some first
  else if x.readsBack second k then some second
  else none

/-- Tries ever finer grids, starting from `digits` digits. -/
def search (x : Binary64) (p : Int) (digits : Nat) : Nat → Nat × Int
  | 0 => (0, 0)
  | rounds + 1 =>
    match x.atGrid (p - digits) with
    | some d => (d, p - digits)
    | none => search x p (digits + 1) rounds

/-- Strips trailing zeros, at most `rounds` of them. -/
def strip (d : Nat) (k : Int) : Nat → Nat × Int
  | 0 => (d, k)
  | rounds + 1 => if d ≠ 0 ∧ d % 10 = 0 then strip (d / 10) (k + 1) rounds else (d, k)

/-- The fewest digits `d` and exponent `k` with `d · 10 ^ k` rounding to `x`; seventeen
digits are always enough. -/
def shortest (x : Binary64) : Nat × Int :=
  let (d, k) := search x (magnitude x.quotient) 1 17
  strip d k 20

/-- An exponent of ten, always with its sign. -/
def signedExponent (e : Int) : List Char :=
  if 0 ≤ e then '+' :: Text.Decimal.integer e else Text.Decimal.integer e

/-- The numeral: positional from `10 ^ -5` up to sixteen digits before the point, with
at least one digit behind it, otherwise in scientific form. -/
def numeral (x : Binary64) : List Char :=
  if x.isZero then "0.0".toList
  else
    let (d, k) := x.shortest
    let ds := Text.Decimal.digits d
    let length := ds.length
    let point := (length : Int) + k
    if 0 ≤ k ∧ point ≤ 16 then ds ++ List.replicate k.toNat '0' ++ ['.', '0']
    else if 0 < point ∧ point ≤ 16 then ds.take point.toNat ++ '.' :: ds.drop point.toNat
    else if -5 < point ∧ point ≤ 0 then
      '0' :: '.' :: (List.replicate (-point).toNat '0' ++ ds)
    else
      let fraction := if length = 1 then [] else '.' :: ds.drop 1
      ds.take 1 ++ fraction ++ 'e' :: signedExponent (point - 1)

end Binary64

end CartLedger.Json
