import Softcode.Text.Ascii

/-!
# Reading decimals

A decimal is a sign, digits with or without a point, and an exponent; the sign and the exponent may
be missing, and so may the digits on one side of the point. It is read as the nearest floating-point
number.
-/

namespace Softcode.Decimal

/-- The nearest floating-point number to `digits * 10 ^ exponent`; none if that is too large. -/
def nearest? (digits : Nat) (exponent : Int) : Option Float :=
  let lead := exponent + ((Nat.toDigits 10 digits).length : Int)
  if digits = 0 ∨ lead < -400 then some 0
  else if 400 < lead then none
  else
    let x := Float.ofScientific digits (exponent < 0) exponent.natAbs
    if x.isFinite then some x else none

/-- The exponent at the end of a decimal: nothing, or a letter and a number. -/
def exponent? : List Char → Option Int
  | [] => some 0
  | c :: rest =>
    if c != 'e' && c != 'E' then none
    else
      let negative := rest.head? == some '-'
      let digits := if negative || rest.head? == some '+' then rest.drop 1 else rest
      if digits.isEmpty || !digits.all Char.isDigit then none
      else
        let n : Int := Text.decimalValue digits
        some (if negative then -n else n)

/-- Read a decimal without its sign. -/
def unsigned? (text : List Char) : Option Float :=
  let whole := text.takeWhile Char.isDigit
  let rest := text.drop whole.length
  let pointed := rest.head? == some '.'
  let rest := if pointed then rest.drop 1 else rest
  let fraction := if pointed then rest.takeWhile Char.isDigit else []
  let digits := whole ++ fraction
  if digits.isEmpty then none
  else
    match exponent? (rest.drop fraction.length) with
    | none => none
    | some e => nearest? (Text.decimalValue digits) (e - (fraction.length : Int))

/-- Read a decimal. -/
def float? (text : List Char) : Option Float :=
  match text with
  | '-' :: rest => (unsigned? rest).map fun x => -x
  | '+' :: rest => unsigned? rest
  | _ => unsigned? text

end Softcode.Decimal
