import RubyScaffold.Decimal.Shortest

/-!
Binary numbers written in decimal: positionally in full, or with an exponent where JSON texts
have one.
-/

set_option autoImplicit false

namespace RubyScaffold.Decimal

/-- The digits with the point in its place and no exponent; a whole number has no point. -/
def positional (d : Digits) : String :=
  let text := Nat.toDigits 10 d.digits
  if 0 ≤ d.exponent then
    String.ofList (text ++ List.replicate d.exponent.toNat '0')
  else
    let places := (-d.exponent).toNat
    if text.length ≤ places then
      String.ofList ('0' :: '.' :: List.replicate (places - text.length) '0' ++ text)
    else
      String.ofList (text.take (text.length - places) ++ '.' :: text.drop (text.length - places))

def withPoint (s : String) : String :=
  if s.toList.contains '.' then s else s ++ ".0"

/-- One digit before the point and a signed exponent; no point after a single digit. -/
def scientific (d : Digits) : String :=
  let text := Nat.toDigits 10 d.digits
  let power : Int := d.exponent + text.length - 1
  let mantissa := match text with
    | first :: second :: rest => first :: '.' :: second :: rest
    | short => short
  let sign := if power < 0 then "-" else "+"
  String.ofList mantissa ++ "e" ++ sign ++ toString power.natAbs

/-- The positional text up to the sixteenth place before and the fifth behind the point, and the
one with an exponent past them. -/
def jsonDigits (d : Digits) : String :=
  let power : Int := d.exponent + (Nat.toDigits 10 d.digits).length - 1
  if -5 ≤ power ∧ power < 16 then withPoint (positional d) else scientific d

def signed (negative : Bool) (s : String) : String :=
  if negative then "-" ++ s else s

/-- A number in full, never with an exponent; a whole number has no point. -/
def plainText (x : Binary64) : String :=
  match x.reading with
  | .nan => "NaN"
  | .infinite negative => signed negative "inf"
  | .finite negative m e =>
    signed negative (if m = 0 then "0" else positional (shortest m e))

/-- A number in full that shows by its point that it is no integer. -/
def pointedText (x : Binary64) : String :=
  if x.isFinite then withPoint (plainText x) else plainText x

def jsonText? (x : Binary64) : Option String :=
  match x.reading with
  | .finite negative m e =>
    some (signed negative (if m = 0 then "0.0" else jsonDigits (shortest m e)))
  | _ => none

end RubyScaffold.Decimal
