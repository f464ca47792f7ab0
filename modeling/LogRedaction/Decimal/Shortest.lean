/-
LogRedaction.Decimal.Shortest — the fewest digits that read back as a number.

A finite double is `m · 2^q`. Every real number nearer to it than to its neighbours reads back
as it; so do the ends of that interval if `m` is even. The digits of a double are those of
the decimal number in the interval that has the fewest digits and, among those, is nearest.
On each grid of decimal numbers only the two neighbours of the double can be that number.
-/

namespace LogRedaction.Decimal

/-- A positive finite double, as `mantissa · 2^exponent`. -/
structure Binary where
  mantissa : Nat
  exponent : Int
deriving DecidableEq, Repr

/-- Digits `d₁d₂…` standing for `0.d₁d₂… · 10^point`. -/
structure Digits where
  digits : List Nat
  point : Int
deriving DecidableEq, Repr

/-- A positive fraction. -/
structure Fraction where
  num : Nat
  den : Nat
deriving DecidableEq, Repr

/-- `n · 2^e` as a fraction. -/
def Fraction.scaled (n : Nat) (e : Int) : Fraction :=
  if e ≥ 0 then ⟨n * Nat.pow 2 e.toNat, 1⟩ else ⟨n, Nat.pow 2 (-e).toNat⟩

/-- A fraction times a power of ten. -/
def Fraction.shift (f : Fraction) (e : Int) : Fraction :=
  if e ≥ 0 then ⟨f.num * Nat.pow 10 e.toNat, f.den⟩ else ⟨f.num, f.den * Nat.pow 10 (-e).toNat⟩

/-- The number of decimal places by which a fraction below one has to be raised to reach one. -/
def raise : (fuel : Nat) → Fraction → Nat
  | 0, _ => 0
  | fuel + 1, f => if f.num ≥ f.den then 0 else raise fuel ⟨f.num * 10, f.den⟩ + 1

/-- The power of ten above a fraction: `10^(p-1) ≤ f < 10^p`. -/
def magnitude (f : Fraction) : Int :=
  let whole := f.num / f.den
  if whole > 0 then ((Nat.toDigits 10 whole).length : Int) else 1 - (raise 400 f : Int)

/-- The values that read back as a double, in quarters of the last place of its mantissa. -/
structure Interval where
  low : Nat
  high : Nat
  /-- The ends belong to it. -/
  closed : Bool

/-- The interval of a double. Below a power of two the neighbours are half as far away. -/
def Binary.interval (x : Binary) : Interval where
  low :=
    if x.mantissa = Nat.pow 2 52 ∧ x.exponent > -1074 then 4 * x.mantissa - 1
    else 4 * x.mantissa - 2
  high := 4 * x.mantissa + 2
  closed := x.mantissa % 2 = 0

/-- `candidate · 10^unit` reads back as the double. -/
def Binary.readsBack (x : Binary) (candidate : Nat) (unit : Int) : Bool :=
  let interval := x.interval
  let value := (Fraction.mk candidate 1).shift unit
  let low := Fraction.scaled interval.low (x.exponent - 2)
  let high := Fraction.scaled interval.high (x.exponent - 2)
  let below := low.num * value.den
  let left := value.num * low.den
  let right := value.num * high.den
  let above := high.num * value.den
  if interval.closed then below ≤ left && right ≤ above else below < left && right < above

/-- The number with so many digits that reads back and is nearest, if there is one. -/
def Binary.withDigits? (x : Binary) (count : Nat) : Option Digits :=
  let f := Fraction.scaled x.mantissa x.exponent
  let point := magnitude f
  let unit := point - count
  let g := f.shift (-unit)
  let lower := g.num / g.den
  let remainder := g.num % g.den
  let result (n : Nat) : Digits :=
    let digits := (Nat.toDigits 10 n).map fun c => c.toNat - '0'.toNat
    ⟨digits, unit + digits.length⟩
  match x.readsBack lower unit, x.readsBack (lower + 1) unit with
  | true, false => some (result lower)
  | false, true => some (result (lower + 1))
  | true, true =>
    let nearer := if 2 * remainder < g.den then lower
      else if 2 * remainder > g.den then lower + 1
      else if lower % 2 = 0 then lower else lower + 1
    some (result nearer)
  | false, false => none

/-- Without zeros at the end. -/
def Digits.trimmed (d : Digits) : Digits :=
  { d with digits := (d.digits.reverse.dropWhile (· == 0)).reverse }

/-- The fewest digits that read back. Seventeen are always enough. -/
def Binary.shortest (x : Binary) : Digits :=
  (((List.range 17).findSome? fun n => x.withDigits? (n + 1)).getD ⟨[0], 1⟩).trimmed

/-- The parts of a double that is neither zero nor special. -/
def Binary.ofBits (bits : Nat) : Binary :=
  let fraction := bits % Nat.pow 2 52
  let biased := bits / Nat.pow 2 52 % Nat.pow 2 11
  if biased = 0 then ⟨fraction, -1074⟩ else ⟨fraction + Nat.pow 2 52, Int.ofNat biased - 1075⟩

end LogRedaction.Decimal
