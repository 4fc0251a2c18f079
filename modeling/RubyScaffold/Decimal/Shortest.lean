import RubyScaffold.Decimal.Binary64

/-!
The shortest decimal that reads back as a binary number. The numbers that round to it fill an
interval; its ends belong to it when its significand is even. On the coarsest decimal grid with a
point in the interval, the point nearest to the number is taken.
-/

set_option autoImplicit false

namespace RubyScaffold.Decimal

/-- Decimal digits, read as a whole number, at a power of ten. -/
structure Digits where
  digits : Nat
  exponent : Int
  deriving DecidableEq, Repr

/-- A positive number and the interval that rounds to it, as numerators over one denominator. -/
structure Interval where
  low : Nat
  value : Nat
  high : Nat
  den : Nat
  closed : Bool

/-- The interval of the number `m * 2 ^ e`. The gap below a power of two is half the gap above. -/
def Interval.ofBinary (m : Nat) (e : Int) : Interval :=
  let below := if m = Binary64.hiddenBit ∧ -1074 < e then 1 else 2
  let up := if 0 ≤ e then Nat.pow 2 e.toNat else 1
  let den := if 0 ≤ e then 4 else 4 * Nat.pow 2 (-e).toNat
  ⟨(4 * m - below) * up, 4 * m * up, (4 * m + 2) * up, den, m % 2 == 0⟩

def Interval.contains (i : Interval) (num den : Nat) : Bool :=
  let a := i.low * den
  let b := num * i.den
  let c := i.high * den
  if i.closed then decide (a ≤ b) && decide (b ≤ c) else decide (a < b) && decide (b < c)

def leadingExponent (num den : Nat) : Int :=
  let guess : Int := ((Nat.toDigits 10 num).length : Int) - (Nat.toDigits 10 den).length
  let reached :=
    if 0 ≤ guess then decide (den * Nat.pow 10 guess.toNat ≤ num)
    else decide (den ≤ num * Nat.pow 10 (-guess).toNat)
  if reached then guess else guess - 1

/-- The point of the grid with step `10 ^ k` that lies in the interval and nearest to the number,
if one lies there. -/
def gridPoint? (i : Interval) (k : Int) : Option Digits :=
  let step := if 0 ≤ k then Nat.pow 10 k.toNat else 1
  let den := if 0 ≤ k then 1 else Nat.pow 10 (-k).toNat
  -- the number in steps is value * den / (i.den * step)
  let whole := i.value * den / (i.den * step)
  let twiceRest := 2 * (i.value * den - whole * (i.den * step))
  let lower := i.contains (whole * step) den
  let upper := i.contains ((whole + 1) * step) den
  match lower, upper with
  | true, true =>
    if twiceRest < i.den * step then some ⟨whole, k⟩
    else if i.den * step < twiceRest then some ⟨whole + 1, k⟩
    else some ⟨whole + whole % 2, k⟩
  | true, false => some ⟨whole, k⟩
  | false, true => some ⟨whole + 1, k⟩
  | false, false => none

def searchGrids (i : Interval) : Nat → Int → Digits
  | 0, k => ⟨i.value, k⟩
  | n + 1, k => match gridPoint? i k with
    | some d => d
    | none => searchGrids i n (k - 1)

def dropZeros : Nat → Digits → Digits
  | 0, d => d
  | n + 1, d =>
    if d.digits ≠ 0 ∧ d.digits % 10 = 0 then dropZeros n ⟨d.digits / 10, d.exponent + 1⟩ else d

/-- The shortest decimal that reads back as `m * 2 ^ e`; seventeen digits always do. -/
def shortest (m : Nat) (e : Int) : Digits :=
  let i := Interval.ofBinary m e
  dropZeros 20 (searchGrids i 18 (leadingExponent i.value i.den))

end RubyScaffold.Decimal
