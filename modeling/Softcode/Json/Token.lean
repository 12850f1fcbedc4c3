import Softcode.Json.Basic
import Softcode.Text.Ascii
import Softcode.Text.Digits

/-!
# Tokens of JSON

A text is cut into tokens, each with the places before and after it. A place is a line and the
number of bytes since the line started. A token that cannot be finished is the last one; it keeps
what it looked like from its first character, because a reader that expects something else there
complains about that and not about the token's inside.
-/

namespace Softcode.Json

/-- A place in a text: a line counted from one, and the bytes consumed on it. -/
structure Place where
  line : Nat
  column : Nat
  deriving DecidableEq, Repr, Inhabited

namespace Place

/-- The place before the first character. -/
def start : Place := ⟨1, 0⟩

/-- The place after a character. -/
def after (p : Place) (c : Char) : Place :=
  if c == '\n' then ⟨p.line + 1, 0⟩ else ⟨p.line, p.column + c.utf8Size⟩

/-- The place after some characters. -/
def afterAll (p : Place) (cs : List Char) : Place := cs.foldl after p

/-- The place `count` bytes further on, perhaps inside a character; none if fewer bytes are left. -/
def afterBytes? (p : Place) : Nat → List Char → Option Place
  | 0, _ => some p
  | _ + 1, [] => none
  | count + 1, c :: rest =>
    if c.utf8Size ≤ count + 1 then (p.after c).afterBytes? (count + 1 - c.utf8Size) rest
    else some ⟨p.line, p.column + count + 1⟩

end Place

/-- What can be wrong with the form of a JSON text. -/
inductive Problem where
  | endInValue
  | endInObject
  | endInList
  | endInString
  | expectedValue
  | expectedWord
  | expectedColon
  | expectedMemberEnd
  | expectedItemEnd
  | keyNotString
  | trailingComma
  | trailingCharacters
  | invalidNumber
  | numberOutOfRange
  | invalidEscape
  | loneSurrogate
  | brokenSurrogatePair
  | controlCharacter
  deriving DecidableEq, Repr

/-- A problem in words. -/
def Problem.message : Problem → String
  | endInValue => "EOF while parsing a value"
  | endInObject => "EOF while parsing an object"
  | endInList => "EOF while parsing a list"
  | endInString => "EOF while parsing a string"
  | expectedValue => "expected value"
  | expectedWord => "expected ident"
  | expectedColon => "expected `:`"
  | expectedMemberEnd => "expected `,` or `\x7d`"
  | expectedItemEnd => "expected `,` or `]`"
  | keyNotString => "key must be a string"
  | trailingComma => "trailing comma"
  | trailingCharacters => "trailing characters"
  | invalidNumber => "invalid number"
  | numberOutOfRange => "number out of range"
  | invalidEscape => "invalid escape"
  | loneSurrogate => "lone leading surrogate in hex escape"
  | brokenSurrogatePair => "unexpected end of hex escape"
  | controlCharacter => "control character (\\u0000-\\u001F) found while parsing a string"

/-- A problem and its place. -/
structure Fault where
  problem : Problem
  place : Place
  deriving DecidableEq, Repr

/-- What a token looks like from its first character. -/
inductive Shape where
  | openBrace
  | closeBrace
  | openBracket
  | closeBracket
  | colon
  | comma
  | string
  | number
  /-- one of the words `true`, `false` and `null` -/
  | word
  /-- a character that starts no token -/
  | stray
  /-- the end of the text -/
  | finish
  deriving DecidableEq, Repr

/-- A token. -/
structure Token where
  shape : Shape
  /-- before the token, after the blanks in front of it -/
  before : Place
  /-- after the first byte of the token -/
  peeked : Place
  /-- after the token -/
  after : Place
  /-- the value of a string, a number or a word, or what is wrong with it -/
  value : Except Fault Json
  /-- why the text cannot be cut any further -/
  stop : Option Fault
  deriving Repr

/-! ## Strings -/

/-- The character that a letter after a backslash stands for. -/
def unescape? (c : Char) : Option Char :=
  match c with
  | '"' => some '"'
  | '\\' => some '\\'
  | '/' => some '/'
  | 'b' => some '\x08'
  | 'f' => some '\x0c'
  | 'n' => some '\n'
  | 'r' => some '\r'
  | 't' => some '\t'
  | _ => none

/-- A code unit that is the first half of a surrogate pair. -/
def isHighSurrogate (n : Nat) : Bool := 0xD800 ≤ n && n < 0xDC00

/-- A code unit that is the second half of a surrogate pair. -/
def isLowSurrogate (n : Nat) : Bool := 0xDC00 ≤ n && n < 0xE000

/-- The character of a surrogate pair. -/
def joinSurrogates (high low : Nat) : Char :=
  Char.ofNat ((high - 0xD800) * 0x400 + (low - 0xDC00) + 0x10000)

/-- What follows the first half of a surrogate pair. -/
inductive PairEnd where
  /-- the second half -/
  | low (unit : Nat)
  /-- something else, which spoils the text -/
  | spoiled (fault : Fault)
  /-- an escape or an end that is a fault of its own -/
  | unfinished

/-- Look at what follows the first half of a surrogate pair. -/
def pairEnd (place : Place) : List Char → PairEnd
  | '\\' :: 'u' :: a :: b :: c :: d :: _ =>
    match Text.hexValue? [a, b, c, d] with
    | none => .unfinished
    | some unit =>
      if isLowSurrogate unit then .low unit
      else .spoiled ⟨.loneSurrogate, place.afterAll ['\\', 'u', a, b, c, d]⟩
  | '\\' :: 'u' :: _ => .unfinished
  | '\\' :: c :: rest =>
    .spoiled ⟨.brokenSurrogatePair, ((place.after '\\').afterBytes? 1 (c :: rest)).getD place⟩
  | ['\\'] => .unfinished
  | [] => .unfinished
  | c :: rest => .spoiled ⟨.brokenSurrogatePair, (place.afterBytes? 1 (c :: rest)).getD place⟩

/-- A string that has been cut off its text. -/
structure StringScan where
  /-- its characters, or the first fault in reading them -/
  value : Except Fault String
  /-- place and text after the closing quote, or why there is none -/
  rest : Except Fault (Place × List Char)

/-- A fault that also ends the text; an earlier fault in the value comes first. -/
def StringScan.broken (spoil : Option Fault) (fault : Fault) : StringScan :=
  ⟨.error (spoil.getD fault), .error fault⟩

/-- Scan a string after its opening quote. `read` holds the characters so far, last first, and
`spoil` the first fault in them. -/
def scanString (place : Place) (spoil : Option Fault) (read : List Char) : List Char → StringScan
  | [] => .broken spoil ⟨.endInString, place⟩
  | '"' :: rest =>
    ⟨match spoil with
      | some fault => .error fault
      | none => .ok (String.ofList read.reverse),
    .ok (place.after '"', rest)⟩
  | '\\' :: 'u' :: a :: b :: c :: d :: rest =>
    let next := place.afterAll ['\\', 'u', a, b, c, d]
    match Text.hexValue? [a, b, c, d] with
    | none =>
      let here := (place.after '\\').after 'u'
      .broken spoil <| match here.afterBytes? 4 (a :: b :: c :: d :: rest) with
        | some p => ⟨.invalidEscape, p⟩
        | none => ⟨.endInString, here.afterAll (a :: b :: c :: d :: rest)⟩
    | some unit =>
      if isLowSurrogate unit then
        scanString next (spoil.or (some ⟨.loneSurrogate, next⟩)) read rest
      else if isHighSurrogate unit then
        match pairEnd next rest, rest with
        | .low low, '\\' :: 'u' :: a' :: b' :: c' :: d' :: rest' =>
          scanString (next.afterAll ['\\', 'u', a', b', c', d']) spoil
            (joinSurrogates unit low :: read) rest'
        | .spoiled fault, rest => scanString next (spoil.or (some fault)) read rest
        | _, rest => scanString next spoil read rest
      else scanString next spoil (Char.ofNat unit :: read) rest
  | '\\' :: 'u' :: rest =>
    let here := (place.after '\\').after 'u'
    .broken spoil <| match here.afterBytes? 4 rest with
      | some p => ⟨.invalidEscape, p⟩
      | none => ⟨.endInString, here.afterAll rest⟩
  | ['\\'] => .broken spoil ⟨.endInString, place.after '\\'⟩
  | '\\' :: c :: rest =>
    match unescape? c with
    | some char => scanString ((place.after '\\').after c) spoil (char :: read) rest
    | none =>
      let here := place.after '\\'
      .broken spoil ⟨.invalidEscape, (here.afterBytes? 1 (c :: rest)).getD here⟩
  | c :: rest =>
    if c.toNat < 0x20 then .broken spoil ⟨.controlCharacter, place.after c⟩
    else scanString (place.after c) spoil (c :: read) rest

/-- At its closing quote a string has the characters so far, unless something has spoiled it. -/
theorem value_scanString_quote (place : Place) (spoil : Option Fault) (read rest : List Char) :
    (scanString place spoil read ('"' :: rest)).value.toOption
      = if spoil.isSome then none else some (String.ofList read.reverse) := by
  cases spoil <;> simp [scanString, Except.toOption]

/-! ## Numbers -/

/-- A decimal as it is collected: digits that fit a 64-bit word, and a power of ten. -/
structure Scaled where
  significand : Nat
  exponent : Int
  deriving DecidableEq, Repr

/-- Add digits before the point. From the first digit that does not fit, digits only count. -/
def Scaled.addWhole (s : Scaled) : List Char → Scaled
  | [] => s
  | d :: rest =>
    let next := s.significand * 10 + (d.toNat - '0'.toNat)
    if next ≤ Text.wordMax then Scaled.addWhole { s with significand := next } rest
    else { s with exponent := s.exponent + (rest.length + 1) }

/-- Add digits after the point. From the first digit that does not fit, digits are dropped. -/
def Scaled.addFraction (s : Scaled) : List Char → Scaled
  | [] => s
  | d :: rest =>
    let next := s.significand * 10 + (d.toNat - '0'.toNat)
    if next ≤ Text.wordMax then Scaled.addFraction ⟨next, s.exponent - 1⟩ rest else s

/-- The power of ten nearest to `10 ^ n`. -/
def powerOfTen (n : Nat) : Float := Float.ofScientific 1 false n

/-- Scale a number by a power of ten, dividing at most `steps` times by the largest one; none if the
number gets too large. -/
def scaleBy (x : Float) (exponent : Int) : Nat → Option Float
  | 0 => some x
  | steps + 1 =>
    if exponent.natAbs ≤ 308 then
      if 0 ≤ exponent then
        let y := x * powerOfTen exponent.natAbs
        if y.isInf then none else some y
      else some (x / powerOfTen exponent.natAbs)
    else if x == 0 then some x
    else if 0 ≤ exponent then none
    else scaleBy (x / powerOfTen 308) (exponent + 308) steps

/-- The floating-point number of a collected decimal. Three divisions bring any significand to zero.
-/
def Scaled.toFloat? (s : Scaled) (negative : Bool) : Option Float :=
  (scaleBy s.significand.toUInt64.toFloat s.exponent 4).map fun x => if negative then -x else x

/-- The value of a numeral without point and exponent. Integers beyond 64 bits, and minus zero, are
floating-point numbers. -/
def wholeValue (negative : Bool) (digits : List Char) : Option Json :=
  let s := Scaled.addWhole ⟨0, 0⟩ digits
  if s.exponent ≠ 0 then (s.toFloat? negative).map .real
  else if !negative then some (.integer s.significand)
  else if s.significand = 0 ∨ 1 <<< 63 < s.significand then (s.toFloat? negative).map .real
  else some (.integer (-(s.significand : Int)))

/-- An exponent part: its digits and its sign. -/
structure Exponent where
  negative : Bool
  digits : List Char
  deriving DecidableEq, Repr

/-- Number of leading digits after which a numeral exceeds 31 bits; none if it does not. -/
def overflowAt (value count : Nat) : List Char → Option Nat
  | [] => none
  | d :: rest =>
    let next := value * 10 + (d.toNat - '0'.toNat)
    if 1 <<< 31 ≤ next then some (count + 1) else overflowAt next (count + 1) rest

/-- The value of a numeral with a point or an exponent. `start` is the place of the exponent's
digits and `stop` the place after the numeral. -/
def realValue (negative : Bool) (s : Scaled) (exponent : Option Exponent) (start stop : Place) :
    Except Fault Json :=
  let finish (s : Scaled) : Except Fault Json :=
    match s.toFloat? negative with
    | some x => .ok (.real x)
    | none => .error ⟨.numberOutOfRange, stop⟩
  match exponent with
  | none => finish s
  | some e =>
    match overflowAt 0 0 e.digits with
    | some count =>
      if s.significand ≠ 0 ∧ !e.negative then
        .error ⟨.numberOutOfRange, ⟨start.line, start.column + count⟩⟩
      else .ok (.real (if negative then -0.0 else 0.0))
    | none =>
      let n : Int := Text.decimalValue e.digits
      finish { s with exponent := if e.negative then s.exponent - n else s.exponent + n }

/-- A number that has been cut off its text. -/
structure NumberScan where
  value : Except Fault Json
  rest : Except Fault (Place × List Char)

/-- A number that cannot be finished. -/
def NumberScan.broken (fault : Fault) : NumberScan := ⟨.error fault, .error fault⟩

/-- The fault of a text that goes on with `rest` where a digit is needed: its first byte is the one
complained about. -/
def missingDigit (place : Place) (rest : List Char) : Fault :=
  match place.afterBytes? 1 rest with
  | some p => ⟨.invalidNumber, p⟩
  | none => ⟨.endInValue, place⟩

/-- Scan what follows the digits before and after the point: an exponent, or the end. -/
def scanExponent (negative : Bool) (s : Scaled) (place : Place) (cs : List Char) : NumberScan :=
  let sign := (cs.take 1).filter fun c => c == '+' || c == '-'
  let place := place.afterAll sign
  let cs := cs.drop sign.length
  let digits := cs.takeWhile Char.isDigit
  if digits.isEmpty then .broken (missingDigit place cs)
  else
    let stop := place.afterAll digits
    ⟨realValue negative s (some ⟨sign == ['-'], digits⟩) place stop,
      .ok (stop, cs.drop digits.length)⟩

/-- Scan what follows the point. -/
def scanFraction (negative : Bool) (s : Scaled) (place : Place) (cs : List Char) : NumberScan :=
  let digits := cs.takeWhile Char.isDigit
  if digits.isEmpty then .broken (missingDigit place cs)
  else
    let s := s.addFraction digits
    let place := place.afterAll digits
    match cs.drop digits.length with
    | 'e' :: rest => scanExponent negative s (place.after 'e') rest
    | 'E' :: rest => scanExponent negative s (place.after 'E') rest
    | rest => ⟨realValue negative s none place place, .ok (place, rest)⟩

/-- Scan a number from its first digit on. -/
def scanUnsigned (negative : Bool) (place : Place) (cs : List Char) : NumberScan :=
  let digits := cs.takeWhile Char.isDigit
  match digits with
  | [] => .broken (missingDigit place cs)
  | '0' :: d :: _ => .broken ⟨.invalidNumber, (place.after '0').after d⟩
  | digits =>
    let s := Scaled.addWhole ⟨0, 0⟩ digits
    let place := place.afterAll digits
    match cs.drop digits.length with
    | '.' :: rest => scanFraction negative s (place.after '.') rest
    | 'e' :: rest => scanExponent negative s (place.after 'e') rest
    | 'E' :: rest => scanExponent negative s (place.after 'E') rest
    | rest =>
      ⟨match wholeValue negative digits with
        | some value => .ok value
        | none => .error ⟨.numberOutOfRange, place⟩,
      .ok (place, rest)⟩

/-- Scan a number. -/
def scanNumber (place : Place) : List Char → NumberScan
  | '-' :: rest => scanUnsigned true (place.after '-') rest
  | cs => scanUnsigned false place cs

/-! ## Tokens -/

/-- Scan the rest of a word. -/
def scanWord (place : Place) : List Char → List Char → Except Fault (Place × List Char)
  | [], cs => .ok (place, cs)
  | _ :: _, [] => .error ⟨.endInValue, place⟩
  | expected :: more, c :: cs =>
    if c == expected then scanWord (place.after c) more cs
    else .error ⟨.expectedWord, ((place.afterBytes? 1 (c :: cs))).getD place⟩

/-- The blanks that JSON allows between tokens. -/
def isBlank (c : Char) : Bool := c == ' ' || c == '\n' || c == '\t' || c == '\r'

/-- The first token of a text without blanks in front, with the text after it. -/
def nextToken (place : Place) (cs : List Char) : Token × List Char :=
  let peeked := (place.afterBytes? 1 cs).getD place
  let mark (shape : Shape) (rest : List Char) : Token × List Char :=
    (⟨shape, place, peeked, peeked, .ok .null, none⟩, rest)
  let scanned (shape : Shape) (value : Except Fault Json)
      (rest : Except Fault (Place × List Char)) : Token × List Char :=
    match rest with
    | .ok (after, rest) => (⟨shape, place, peeked, after, value, none⟩, rest)
    | .error fault => (⟨shape, place, peeked, fault.place, value, some fault⟩, [])
  let word (value : Json) (letters : String) (rest : List Char) : Token × List Char :=
    match scanWord peeked letters.toList rest with
    | .ok found => scanned .word (.ok value) (.ok found)
    | .error fault => scanned .word (.error fault) (.error fault)
  match cs with
  | [] => (⟨.finish, place, place, place, .ok .null, some ⟨.endInValue, place⟩⟩, [])
  | '{' :: rest => mark .openBrace rest
  | '}' :: rest => mark .closeBrace rest
  | '[' :: rest => mark .openBracket rest
  | ']' :: rest => mark .closeBracket rest
  | ':' :: rest => mark .colon rest
  | ',' :: rest => mark .comma rest
  | '"' :: rest =>
    let scan := scanString peeked none [] rest
    scanned .string (scan.value.map .text) scan.rest
  | 't' :: rest => word (.flag true) "rue" rest
  | 'f' :: rest => word (.flag false) "alse" rest
  | 'n' :: rest => word .null "ull" rest
  | c :: rest =>
    if c == '-' || c.isDigit then
      let scan := scanNumber place (c :: rest)
      scanned .number scan.value scan.rest
    else (⟨.stray, place, peeked, peeked, .ok .null, some ⟨.expectedValue, peeked⟩⟩, [])

/-- The tokens of a text of at most `fuel` tokens. The last one is the end of the text, or the one
that stops the cutting. -/
def tokensFrom (place : Place) (cs : List Char) : Nat → List Token
  | 0 => []
  | fuel + 1 =>
    let blanks := cs.takeWhile isBlank
    let next := nextToken (place.afterAll blanks) (cs.drop blanks.length)
    next.1 :: if next.1.stop.isSome then [] else tokensFrom next.1.after next.2 fuel

/-- The tokens of a text. Every token but the last takes at least one character. -/
def tokens (text : List Char) : List Token := tokensFrom .start text (text.length + 1)

end Softcode.Json
