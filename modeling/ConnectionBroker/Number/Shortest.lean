import ConnectionBroker.Number.Binary64
import ConnectionBroker.Text.Digits

/-! # The shortest decimal that reads back

The reals that round to a floating-point number form an interval. On the grid of the multiples of
a power of ten, a point lies in that interval only if one of the number's two neighbours on the
grid does. The coarsest grid with such a neighbour gives the fewest digits; of two neighbours the
nearer one is taken, and of two at equal distance the even one.
-/

namespace ConnectionBroker

/-- The number `digits * 10 ^ exponent`. -/
structure Decimal where
  digits : Nat
  exponent : Int
  deriving DecidableEq, Inhabited

namespace Decimal

/-- The same number without trailing zeros among the digits; `fuel` bounds the zeros removed. -/
def strip : (fuel : Nat) → Decimal → Decimal
  | 0, d => d
  | fuel + 1, d =>
      if d.digits ≠ 0 ∧ d.digits % 10 = 0 then
        strip fuel ⟨d.digits / 10, d.exponent + 1⟩
      else
        d

end Decimal

namespace Binary64

/-- A positive number with the ends of its rounding interval, over one denominator. -/
structure Interval where
  value : Nat
  low : Nat
  high : Nat
  denominator : Nat
  /-- Whether the ends themselves round to the number. -/
  closed : Bool

/-- The rounding interval of a positive number, in quarters of its last place. -/
def interval (x : Binary64) : Interval :=
  let unit := 1 <<< x.scale
  let below := if x.isBoundary then 1 else 2
  { value := 4 * x.significand * unit
    low := (4 * x.significand - below) * unit
    high := (4 * x.significand + 2) * unit
    denominator := 1 <<< 1076
    closed := x.significand % 2 == 0 }

/-- Multiplies a fraction by a power of ten, which may be negative. -/
def Interval.scaleBy (i : Interval) (power : Int) : Interval :=
  let up := Nat.pow 10 power.toNat
  let down := Nat.pow 10 (-power).toNat
  { i with
    value := i.value * up
    low := i.low * up
    high := i.high * up
    denominator := i.denominator * down }

/-- Whether the integer `n` lies in the interval. -/
def Interval.contains (i : Interval) (n : Nat) : Bool :=
  let point := n * i.denominator
  if i.closed then i.low ≤ point && point ≤ i.high else i.low < point && point < i.high

/-- The neighbour of the number among the integers that lies in the interval: the nearer one if
both do, and the even one of two equally near. -/
def Interval.integer? (i : Interval) : Option Nat :=
  let below := i.value / i.denominator
  let rest := 2 * (i.value % i.denominator)
  match i.contains below, i.contains (below + 1) with
  | true, true =>
      if rest < i.denominator then some below
      else if i.denominator < rest then some (below + 1)
      else if below % 2 = 0 then some below
      else some (below + 1)
  | true, false => some below
  | false, true => some (below + 1)
  | false, false => none

/-- How many digits stand before the point, or minus the number of zeros right after it. -/
def magnitude (i : Interval) : Int :=
  if i.denominator ≤ i.value then
    (Text.decimalText (i.value / i.denominator)).length
  else
    let zeros := (List.range 400).find? fun j => i.denominator ≤ i.value * Nat.pow 10 (j + 1)
    Int.negOfNat (zeros.getD 0)

/-- The decimal with the fewest digits that rounds to the number, seventeen at most. -/
def shortest (x : Binary64) : Decimal :=
  let i := x.interval
  let size := magnitude i
  let hit := (List.range 17).findSome? fun (places : Nat) =>
    let power : Int := places + 1 - size
    ((i.scaleBy power).integer?).map fun digits => Decimal.mk digits (-power)
  Decimal.strip 17 (hit.getD ⟨0, 0⟩)

/-! ## Text -/

def zeros (n : Nat) : List Char :=
  List.replicate n '0'

def exponentText : Int → List Char
  | .ofNat n => '+' :: Text.decimalText n
  | .negSucc n => '-' :: Text.decimalText (n + 1)

/-- A positive decimal as text: positional while the point falls within the first sixteen places
or at most five zeros lead, with one fractional digit at least, and else with an exponent. -/
def decimalText (d : Decimal) : List Char :=
  let digits := Text.decimalText d.digits
  let point : Int := digits.length + d.exponent
  if 0 ≤ d.exponent ∧ point ≤ 16 then
    digits ++ zeros d.exponent.toNat ++ ['.', '0']
  else if 0 < point ∧ point ≤ 16 then
    digits.take point.toNat ++ '.' :: digits.drop point.toNat
  else if -5 < point ∧ point ≤ 0 then
    ['0', '.'] ++ zeros (-point).toNat ++ digits
  else
    let exponent := exponentText (point - 1)
    match digits with
    | [] => []
    | [digit] => digit :: 'e' :: exponent
    | digit :: rest => digit :: '.' :: rest ++ 'e' :: exponent

/-- A number as text: the shortest decimal that reads back, and a sign also before zero. -/
def text (x : Binary64) : List Char :=
  let magnitude := if x.significand = 0 then ['0', '.', '0'] else decimalText x.shortest
  if x.isNegative then '-' :: magnitude else magnitude

end Binary64

end ConnectionBroker
