/-!
# Shortest decimals

The fewest decimal digits that read back to a floating-point number. A positive number `m * 2 ^ q`
stands for the reals that round to it: an interval around it whose ends belong to it exactly when
`m` is even. The digits are found by trying ever finer decimal grids in exact arithmetic.
-/

namespace Softcode.Decimal

/-- A positive number as a fraction, with the ends of the interval that rounds to it over the same
denominator. -/
structure Interval where
  low : Nat
  value : Nat
  high : Nat
  den : Nat
  /-- the ends belong to the interval -/
  closed : Bool
  deriving Repr

/-- The three fields of the binary form of a number. -/
structure BinaryForm where
  negative : Bool
  exponent : Nat
  mantissa : Nat
  deriving DecidableEq, Repr

namespace BinaryForm

/-- The fields of a number: one bit for the sign, 11 for the exponent and 52 for the mantissa. -/
def ofFloat (x : Float) : BinaryForm :=
  let bits := x.toBits.toNat
  { negative := bits >>> 63 = 1
    exponent := (bits >>> 52) % 2048
    mantissa := bits % (1 <<< 52) }

/-- The sign as it is written. -/
def sign (b : BinaryForm) : List Char := if b.negative then ['-'] else []

end BinaryForm

/-- The interval of the positive number with these fields of its binary form. -/
def intervalOf (exponentField mantissaField : Nat) : Interval :=
  let m := if exponentField = 0 then mantissaField else mantissaField + 1 <<< 52
  -- the number is `m * 2 ^ (e - 1075)`, the smallest exponent being shared by two fields
  let e := max exponentField 1
  let narrow := mantissaField = 0 && 1 < exponentField
  let num := 1 <<< (e - 1077)
  let den := 1 <<< (1077 - e)
  { low := (4 * m - if narrow then 1 else 2) * num
    value := 4 * m * num
    high := (4 * m + 2) * num
    den
    closed := m % 2 = 0 }

/-- The least `j ≤ fuel` with `den ≤ num * 10 ^ j`. -/
def downScale (num den : Nat) : Nat → Nat
  | 0 => 0
  | fuel + 1 => if den ≤ num then 0 else downScale (num * 10) den fuel + 1

/-- The exponent of the leading decimal digit of `num / den`. -/
def leadingExponent (num den : Nat) : Int :=
  if den ≤ num then ((Nat.toDigits 10 (num / den)).length : Int) - 1
  else -(downScale num den 400 : Int)

/-- The decimal `digits * 10 ^ exponent`. -/
structure Digits where
  digits : Nat
  exponent : Int
  deriving DecidableEq, Repr

/-- Move trailing zeros of the digits into the exponent. -/
def stripZeros : Nat → Digits → Digits
  | 0, d => d
  | fuel + 1, d =>
    if d.digits ≠ 0 ∧ d.digits % 10 = 0 then stripZeros fuel ⟨d.digits / 10, d.exponent + 1⟩ else d

/-- The point of the grid `10 ^ exponent` that lies in the interval and is nearest to its value; of
two equally near ones, the even one. -/
def onGrid (i : Interval) (exponent : Int) : Option Nat :=
  let up := Nat.pow 10 exponent.toNat
  let scale := Nat.pow 10 (-exponent).toNat
  let den := i.den * up
  let low := i.low * scale
  let value := i.value * scale
  let high := i.high * scale
  let inside (n : Nat) : Bool :=
    if i.closed then low ≤ n * den && n * den ≤ high else low < n * den && n * den < high
  let below := value / den
  let above := below + 1
  if inside below then
    if inside above then
      let twice := 2 * value
      let middle := (below + above) * den
      if twice < middle || (twice = middle && below % 2 = 0) then some below else some above
    else some below
  else if inside above then some above
  else none

/-- The first grid with a hit, starting with `count` digits. -/
def search (i : Interval) (lead : Int) (count : Nat) : Nat → Digits
  | 0 => ⟨i.value / i.den, 0⟩
  | fuel + 1 =>
    let exponent := lead - (count : Int) + 1
    match onGrid i exponent with
    | some n => stripZeros 20 ⟨n, exponent⟩
    | none => search i lead (count + 1) fuel

/-- The shortest digits of a positive finite number, given by the fields of its binary form. -/
def shortest (exponentField mantissaField : Nat) : Digits :=
  let i := intervalOf exponentField mantissaField
  search i (leadingExponent i.value i.den) 1 17

/-- How numbers are laid out. -/
structure Layout where
  /-- least exponent of the leading digit that is still written without an exponent -/
  leastFixed : Int
  /-- greatest exponent of the leading digit that is still written without an exponent -/
  greatestFixed : Int
  /-- a positive exponent carries a sign -/
  plus : Bool
  infinity : String
  undefined : String
  deriving Repr

/-- Lay out digits with a point, and an exponent where the layout asks for one. -/
def Layout.place (layout : Layout) (d : Digits) : List Char :=
  let ds := Nat.toDigits 10 d.digits
  let lead := d.exponent + (ds.length : Int) - 1
  if layout.leastFixed ≤ lead ∧ lead ≤ layout.greatestFixed then
    if 0 ≤ d.exponent then ds ++ List.replicate d.exponent.toNat '0' ++ ['.', '0']
    else if 0 ≤ lead then
      let whole := (lead + 1).toNat
      ds.take whole ++ '.' :: ds.drop whole
    else '0' :: '.' :: List.replicate (-lead - 1).toNat '0' ++ ds
  else
    let mantissa := match ds with
      | [] => []
      | [c] => [c]
      | c :: more => c :: '.' :: more
    let sign := if lead < 0 then ['-'] else if layout.plus then ['+'] else []
    mantissa ++ 'e' :: sign ++ Nat.toDigits 10 lead.natAbs

/-- The text of a number. -/
def Layout.text (layout : Layout) (x : Float) : List Char :=
  let b := BinaryForm.ofFloat x
  if b.exponent = 2047 then
    if b.mantissa = 0 then b.sign ++ layout.infinity.toList else layout.undefined.toList
  else if b.exponent = 0 ∧ b.mantissa = 0 then b.sign ++ ['0', '.', '0']
  else b.sign ++ layout.place (shortest b.exponent b.mantissa)

/-- `num / den` rounded to the nearest integer; a half goes to the even one. -/
def roundEven (num den : Nat) : Nat :=
  let q := num / den
  let r := num % den
  if 2 * r < den then q else if den < 2 * r then q + 1 else if q % 2 = 0 then q else q + 1

/-- The text of a number with two places, rounded from its exact value. -/
def hundredths (x : Float) : List Char :=
  let b := BinaryForm.ofFloat x
  if b.exponent = 2047 then
    if b.mantissa = 0 then b.sign ++ "inf".toList else "NaN".toList
  else
    let i := intervalOf b.exponent b.mantissa
    let n := roundEven (i.value * 100) i.den
    let places := Nat.toDigits 10 (n % 100)
    b.sign ++ Nat.toDigits 10 (n / 100) ++ '.' :: List.replicate (2 - places.length) '0' ++ places

end Softcode.Decimal
