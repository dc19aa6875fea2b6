import Quorate.Decimal.Double

/-!
# Shortest decimal text of a double

The text of a double is the decimal with the fewest digits among those that round to it, of several the
nearest. Formats differ in which of two equally near decimals they take, in where they write an exponent
instead of zeros, and in the sign of the exponent; the point is always there unless an exponent is.
-/

namespace Quorate.Double

structure Ratio where
  num : Nat
  den : Nat

/-- `quarters` times two to the power `field - 1077`: a mantissa counted in quarters of its unit, scaled by
the exponent field. -/
def Ratio.ofQuarters (quarters field : Nat) : Ratio :=
  ⟨quarters <<< (field - 1077), 1 <<< (1077 - field)⟩

/-- The ratio divided by ten to the power `up - down`. -/
def Ratio.shift (r : Ratio) (up down : Nat) : Ratio :=
  ⟨r.num * Nat.pow 10 down, r.den * Nat.pow 10 up⟩

/-- The numbers that round to a double: its value, the two ends, and whether the ends belong. -/
structure Interval where
  value : Ratio
  low : Ratio
  high : Ratio
  closed : Bool

/-- The interval of a double that is finite and not zero. -/
def interval (d : Double) : Interval :=
  let field := max d.exponentField 1
  let below := if d.fractionField = 0 ∧ 1 < d.exponentField then 1 else 2
  { value := .ofQuarters (4 * d.mantissa) field
    low := .ofQuarters (4 * d.mantissa - below) field
    high := .ofQuarters (4 * d.mantissa + 2) field
    closed := d.mantissa % 2 = 0 }

/-- Whether `n` lies in the interval after division of the interval by ten to the power `up - down`. -/
def Interval.holds (i : Interval) (up down n : Nat) : Bool :=
  let low := i.low.shift up down
  let high := i.high.shift up down
  if i.closed then low.num ≤ n * low.den && n * high.den ≤ high.num
  else low.num < n * low.den && n * high.den < high.num

/-- A whole number on the decimal grid `10 ^ (up - down)` that rounds to the double, the nearer of two. -/
def Interval.onGrid (i : Interval) (tie : Tie) (up down : Nat) : Option Nat :=
  let v := i.value.shift up down
  let below := v.num / v.den
  match i.holds up down below, i.holds up down (below + 1) with
  | true, true => some (tie.nearest v.num v.den)
  | true, false => some below
  | false, true => some (below + 1)
  | false, false => none

/-- A decimal: whole digits and the power of ten that they count. -/
structure Digits where
  digits : Nat
  exponent : Int

/-- The decimal on the coarsest grid with a hit. Grids fall from `10 ^ up` to `10 ^ -400`. -/
def Interval.coarsest (i : Interval) (tie : Tie) : (up : Nat) → Digits
  | 0 => fine 0 400
  | up + 1 =>
    match i.onGrid tie (up + 1) 0 with
    | some n => if n = 0 then i.coarsest tie up else ⟨n, up + 1⟩
    | none => i.coarsest tie up
where
  fine (down : Nat) : (fuel : Nat) → Digits
    | 0 => ⟨0, 0⟩
    | fuel + 1 =>
      match i.onGrid tie 0 down with
      | some n => if n = 0 then fine (down + 1) fuel else ⟨n, -down⟩
      | none => fine (down + 1) fuel

/-- How a format writes doubles. -/
structure Form where
  /-- The positions of the point, counted from before the first digit, at which the digits are written in
  their places; if there are none, they always are. -/
  places : Option (Int × Int)
  /-- Whether an exponent that is not negative has a plus sign. -/
  plus : Bool
  tie : Tie

namespace Form

/-- Digits always in their places, and of two equally near decimals the greater in size. -/
def positional : Form := ⟨none, false, .up⟩

/-- A signed exponent below a hundred thousandth and from ten to the sixteenth on, and of two equally near
decimals the even one. -/
def compact : Form := ⟨some (-4, 16), true, .even⟩

/-- Whether digits with the point at `position` stand in their places. -/
def inPlace (f : Form) (position : Int) : Bool :=
  match f.places with
  | none => true
  | some (low, high) => low ≤ position && position ≤ high

end Form

/-- Digits in their places, at least one on each side of the point. -/
def placed (d : Digits) : List Char :=
  let digits := Nat.toDigits 10 (d.digits * Nat.pow 10 d.exponent.toNat)
  let down := (-d.exponent).toNat
  if down = 0 then digits ++ ['.', '0']
  else
    let digits := List.replicate (down + 1 - digits.length) '0' ++ digits
    let whole := digits.length - down
    digits.take whole ++ '.' :: digits.drop whole

/-- One digit before the point and the exponent after `e`; no point after a single digit. -/
def scientific (plus : Bool) (d : Digits) : List Char :=
  let digits := Nat.toDigits 10 d.digits
  let exponent := d.exponent + digits.length - 1
  let sign := if exponent < 0 then ['-'] else if plus then ['+'] else []
  let tail := 'e' :: sign ++ Nat.toDigits 10 exponent.natAbs
  match digits with
  | [] => tail
  | [c] => c :: tail
  | c :: rest => c :: '.' :: rest ++ tail

def text (f : Form) (d : Double) : String :=
  let sign := if d.isNegative then ['-'] else []
  if d.isNaN then "NaN"
  else if d.isInfinite then String.ofList (sign ++ ['i', 'n', 'f'])
  else if d.isZero then String.ofList (sign ++ ['0', '.', '0'])
  else
    let shortest := d.interval.coarsest f.tie 330
    let position := shortest.exponent + (Nat.toDigits 10 shortest.digits).length
    String.ofList (sign ++ if f.inPlace position then placed shortest else scientific f.plus shortest)

end Quorate.Double
