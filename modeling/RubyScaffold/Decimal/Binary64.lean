/-!
Binary floating point numbers of 64 bits: their exact values, and the nearest of them to a ratio
of whole numbers. A ratio half way between two of them goes to the one with the even last bit.
-/

set_option autoImplicit false

namespace RubyScaffold

/-- A 64-bit floating point number, as its bits. -/
structure Binary64 where
  bits : UInt64
  deriving DecidableEq, Repr, Inhabited

namespace Binary64

/-- What a number stands for; a finite one is `m * 2 ^ e`, with a sign of its own. -/
inductive Reading where
  | nan
  | infinite (negative : Bool)
  | finite (negative : Bool) (m : Nat) (e : Int)

def signBit : Nat := 0x8000000000000000

/-- The bit on top of the fraction, `2 ^ 52`, which is not stored. -/
def hiddenBit : Nat := 0x10000000000000

def ofFields (negative : Bool) (biased fraction : Nat) : Binary64 :=
  ⟨UInt64.ofNat ((if negative then signBit else 0) + biased * hiddenBit + fraction)⟩

def isNegative (x : Binary64) : Bool :=
  decide (signBit ≤ x.bits.toNat)

def reading (x : Binary64) : Reading :=
  let biased : Nat := x.bits.toNat / hiddenBit % 0x800
  let fraction : Nat := x.bits.toNat % hiddenBit
  if biased = 2047 then
    if fraction = 0 then .infinite x.isNegative else .nan
  else if biased = 0 then .finite x.isNegative fraction (-1074)
  else .finite x.isNegative (fraction + hiddenBit) ((biased : Int) - 1075)

def zero (negative : Bool) : Binary64 := ofFields negative 0 0

def infinity (negative : Bool) : Binary64 := ofFields negative 2047 0

def nan : Binary64 := ofFields false 2047 0x8000000000000

def isFinite (x : Binary64) : Bool :=
  match x.reading with
  | .finite _ _ _ => true
  | _ => false

/-- The whole number nearest to a ratio, the even one of two. -/
def roundRatio (num den : Nat) : Nat :=
  let q := num / den
  let twice := 2 * (num % den)
  if twice < den then q
  else if den < twice then q + 1
  else q + q % 2

/-- A ratio over a power of two: the numerator and the denominator of `num / den / 2 ^ k`. -/
def scaled (num den : Nat) (k : Int) : Nat × Nat :=
  if 0 ≤ k then (num, den * Nat.pow 2 k.toNat) else (num * Nat.pow 2 (-k).toNat, den)

/-- The exponent of the last bit that a number near a ratio has. -/
def lastBit (num den : Nat) : Int :=
  let guess : Int := (Nat.log2 num : Int) - Nat.log2 den - 53
  let (n, d) := scaled num den guess
  let exact := if n < d * (2 * hiddenBit) then guess else guess + 1
  max exact (-1074)

/-- The number with a significand of at most 53 bits at an exponent; infinite if it is too large. -/
def assemble (negative : Bool) (m : Nat) (k : Int) : Binary64 :=
  let (m, k) := if m = 2 * hiddenBit then (hiddenBit, k + 1) else (m, k)
  if m < hiddenBit then ofFields negative 0 m
  else if k + 1075 < 2047 then ofFields negative (k + 1075).toNat (m - hiddenBit)
  else infinity negative

def ofRatio (negative : Bool) (num den : Nat) : Binary64 :=
  if num = 0 then zero negative
  else
    let k := lastBit num den
    let (n, d) := scaled num den k
    assemble negative (roundRatio n d) k

def ofNat (n : Nat) : Binary64 := ofRatio false n 1

def neg (x : Binary64) : Binary64 :=
  ⟨x.bits ^^^ UInt64.ofNat signBit⟩

/-- The ratio that a finite number stands for, without its sign. -/
def ratio (m : Nat) (e : Int) : Nat × Nat :=
  if 0 ≤ e then (m * Nat.pow 2 e.toNat, 1) else (m, Nat.pow 2 (-e).toNat)

def mul (x y : Binary64) : Binary64 :=
  match x.reading, y.reading with
  | .finite s m e, .finite t n f =>
    let r := ratio (m * n) (e + f)
    ofRatio (s != t) r.1 r.2
  | _, _ => nan

/-- The number nearest to the quotient of two finite numbers, the second not zero. -/
def div (x y : Binary64) : Binary64 :=
  match x.reading, y.reading with
  | .finite s m e, .finite t n f =>
    let p := ratio m e
    let q := ratio n f
    ofRatio (s != t) (p.1 * q.2) (p.2 * q.1)
  | _, _ => nan

/-- The number nearest to `digits * 10 ^ exponent`. Exponents past all reach are not computed. -/
def ofDecimal (negative : Bool) (digits : Nat) (exponent : Int) : Binary64 :=
  let length : Int := (Nat.toDigits 10 digits).length
  if digits = 0 then zero negative
  else if 400 < length + exponent then infinity negative
  else if length + exponent < -400 then zero negative
  else if 0 ≤ exponent then ofRatio negative (digits * Nat.pow 10 exponent.toNat) 1
  else ofRatio negative digits (Nat.pow 10 (-exponent).toNat)

end Binary64

end RubyScaffold
