import RubyScaffold.Decimal.Binary64
import RubyScaffold.Json.Cursor

/-!
Numbers in JSON text. A number without point and exponent that fits 64 bits is an integer. Any
other is binary: the leading digits that fit 64 bits, times or over a power of ten, each step
rounded to nearest.
-/

set_option autoImplicit false

namespace RubyScaffold.Json

open Text (Cursor)

inductive Number where
  | integer (n : Int)
  | float (x : Binary64)

/-- The digits taken in as long as the value fits 64 bits, and the digits left. -/
def absorb : Nat → List Char → Nat × List Char
  | n, [] => (n, [])
  | n, c :: rest =>
    let m := n * 10 + (c.toNat - '0'.toNat)
    if m < 0x10000000000000000 then absorb m rest else (n, c :: rest)

def digitRun (c : Cursor) : List Char × Cursor :=
  let ds := c.rest.takeWhile Char.isDigit
  (ds, ⟨c.rest.dropWhile Char.isDigit, c.index + ds.length⟩)

def powerOfTen (n : Nat) : Binary64 := .ofNat (Nat.pow 10 n)

/-- A binary number times a power of ten; none if it is too large. Far below the smallest power
the number is first divided by the largest one. -/
def timesPower (x : Binary64) (exponent : Int) : Option Binary64 :=
  if exponent.natAbs ≤ 308 then
    if 0 ≤ exponent then
      let y := x.mul (powerOfTen exponent.natAbs)
      if y.isFinite then some y else none
    else some (x.div (powerOfTen exponent.natAbs))
  else if x = .zero false then some x
  else if 0 ≤ exponent then none
  else timesPower (x.div (powerOfTen 308)) (exponent + 308)
termination_by exponent.natAbs

def assembled (negative : Bool) (significand : Nat) (exponent : Int) (c : Cursor) :
    Except Fault (Number × Cursor) :=
  match timesPower (.ofNat significand) exponent with
  | some x => .ok (.float (if negative then x.neg else x), c)
  | none => faultHere c .numberTooLarge

/-- How many digits of an exponent are read before it is known to be past all bounds. -/
def exponentOverflow? : Nat → Nat → List Char → Option Nat
  | _, _, [] => none
  | n, taken, c :: rest =>
    let m := n * 10 + (c.toNat - '0'.toNat)
    if m < 0x80000000 then exponentOverflow? m (taken + 1) rest else some (taken + 1)

def numberExponent (negative : Bool) (significand : Nat) (exponent : Int) (c : Cursor) :
    Except Fault (Number × Cursor) :=
  let (down, c) := match c.rest with
    | '+' :: _ => (false, c.advance 1)
    | '-' :: _ => (true, c.advance 1)
    | _ => (false, c)
  match digitRun c with
  | ([], _) =>
    if c.rest.isEmpty then faultHere c .endInValue else .error ⟨.badNumber, c.index + 1⟩
  | (ds, after) => match exponentOverflow? 0 0 ds with
    | some taken =>
      if significand ≠ 0 ∧ !down then .error ⟨.numberTooLarge, c.index + taken⟩
      else .ok (.float (.zero negative), after)
    | none =>
      let power : Int := (absorb 0 ds).1
      assembled negative significand (if down then exponent - power else exponent + power) after

def numberFraction (negative : Bool) (significand : Nat) (exponent : Int) (c : Cursor) :
    Except Fault (Number × Cursor) :=
  match digitRun c with
  | ([], _) =>
    .error (faultAt c (if c.rest.isEmpty then .endInValue else .badNumber))
  | (ds, after) =>
    let (significand, left) := absorb significand ds
    let exponent := exponent - (ds.length - left.length : Nat)
    match after.rest with
    | x :: _ =>
      if x = 'e' ∨ x = 'E' then numberExponent negative significand exponent (after.advance 1)
      else assembled negative significand exponent after
    | [] => assembled negative significand exponent after

/-- A number of 64 bits without point and exponent; a negative zero is binary, and so is what is
below the smallest integer. -/
def wholeNumber (negative : Bool) (n : Nat) : Number :=
  if !negative then .integer n
  else if 0 < n ∧ n ≤ 0x8000000000000000 then .integer (-n)
  else .float (Binary64.ofNat n).neg

def numberFrom (negative : Bool) (c : Cursor) : Except Fault (Number × Cursor) :=
  match digitRun c with
  | ([], _) =>
    if c.rest.isEmpty then faultHere c .endInValue else .error ⟨.badNumber, c.index + 1⟩
  | ('0' :: _ :: _, _) => .error ⟨.badNumber, c.index + 2⟩
  | (ds, after) =>
    let (significand, left) := absorb 0 ds
    match after.rest with
    | '.' :: _ => numberFraction negative significand left.length (after.advance 1)
    | 'e' :: _ => numberExponent negative significand left.length (after.advance 1)
    | 'E' :: _ => numberExponent negative significand left.length (after.advance 1)
    | _ =>
      if left.isEmpty then .ok (wholeNumber negative significand, after)
      else assembled negative significand left.length after

def number (c : Cursor) : Except Fault (Number × Cursor) :=
  match c.rest with
  | '-' :: _ => numberFrom true (c.advance 1)
  | _ => numberFrom false c

def skipExponent (c : Cursor) : Except Fault Cursor :=
  let c := match c.rest with
    | '+' :: _ => c.advance 1
    | '-' :: _ => c.advance 1
    | _ => c
  match digitRun c with
  | ([], _) =>
    if c.rest.isEmpty then faultHere c .badNumber else .error ⟨.badNumber, c.index + 1⟩
  | (_, after) => .ok after

def skipFraction (c : Cursor) : Except Fault Cursor :=
  match digitRun c with
  | ([], _) => .error (faultAt c .badNumber)
  | (_, after) => match after.rest with
    | 'e' :: _ => skipExponent (after.advance 1)
    | 'E' :: _ => skipExponent (after.advance 1)
    | _ => .ok after

/-- The cursor behind a number that nobody asked for, whatever its size. -/
def skipNumber (c : Cursor) : Except Fault Cursor :=
  let c := match c.rest with
    | '-' :: _ => c.advance 1
    | _ => c
  match digitRun c with
  | ([], _) =>
    if c.rest.isEmpty then faultHere c .badNumber else .error ⟨.badNumber, c.index + 1⟩
  | ('0' :: _ :: _, _) => .error ⟨.badNumber, c.index + 2⟩
  | (_, after) => match after.rest with
    | '.' :: _ => skipFraction (after.advance 1)
    | 'e' :: _ => skipExponent (after.advance 1)
    | 'E' :: _ => skipExponent (after.advance 1)
    | _ => .ok after

end RubyScaffold.Json
