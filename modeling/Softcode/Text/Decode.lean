import Softcode.Text.Digits

/-!
# Texts from bytes

A file is read as UTF-8 if it is well-formed UTF-8. Otherwise a byte order mark at its start decides
between UTF-8 and UTF-16, which then have to be well-formed, and without a mark every byte is a
character of the Western code page 1252.
-/

namespace Softcode.Text

/-- The low bits of a byte that continues a character of UTF-8. -/
def tailBits? (b : UInt8) : Option Nat :=
  if 0x80 ≤ b && b ≤ 0xBF then some (b.toNat - 0x80) else none

/-- A character of UTF-8 from its bytes; it has to be written in as few bytes as possible. -/
def utf8Char? (bytes : List UInt8) (least first : Nat) : Option Char := do
  let n ← bytes.foldlM (fun n b => (tailBits? b).map (64 * n + ·)) first
  if least ≤ n then charOf? n else none

/-- Read UTF-8. -/
def utf8? : List UInt8 → Option (List Char)
  | [] => some []
  | a :: rest =>
    let n := a.toNat
    if n < 0x80 then (utf8? rest).map (Char.ofNat n :: ·)
    else if n < 0xC2 then none
    else if n < 0xE0 then
      match rest with
      | b :: rest => do return (← utf8Char? [b] 0x80 (n - 0xC0)) :: (← utf8? rest)
      | _ => none
    else if n < 0xF0 then
      match rest with
      | b :: c :: rest => do return (← utf8Char? [b, c] 0x800 (n - 0xE0)) :: (← utf8? rest)
      | _ => none
    else if n < 0xF5 then
      match rest with
      | b :: c :: d :: rest => do
        return (← utf8Char? [b, c, d] 0x10000 (n - 0xF0)) :: (← utf8? rest)
      | _ => none
    else none

/-- The bytes of a text in UTF-8. -/
def utf8Bytes (text : List Char) : List UInt8 := text.flatMap String.utf8EncodeChar

/-- The 16-bit units of bytes, of which there has to be an even number. -/
def units? (littleEndian : Bool) : List UInt8 → Option (List Nat)
  | [] => some []
  | [_] => none
  | a :: b :: rest =>
    let unit := if littleEndian then 256 * b.toNat + a.toNat else 256 * a.toNat + b.toNat
    (units? littleEndian rest).map (unit :: ·)

/-- Read UTF-16. -/
def utf16? : List Nat → Option (List Char)
  | [] => some []
  | u :: rest =>
    if 0xD800 ≤ u && u < 0xDC00 then
      match rest with
      | v :: rest =>
        if 0xDC00 ≤ v && v < 0xE000 then
          (utf16? rest).map (Char.ofNat (0x10000 + 0x400 * (u - 0xD800) + (v - 0xDC00)) :: ·)
        else none
      | [] => none
    else do return (← charOf? u) :: (← utf16? rest)

/-- The characters that the code page 1252 has in place of the controls from 0x80 to 0x9F. Five
bytes stay controls. -/
def westernHigh : List Nat :=
  [0x20AC, 0x81, 0x201A, 0x192, 0x201E, 0x2026, 0x2020, 0x2021, 0x2C6, 0x2030, 0x160, 0x2039, 0x152,
    0x8D, 0x17D, 0x8F, 0x90, 0x2018, 0x2019, 0x201C, 0x201D, 0x2022, 0x2013, 0x2014, 0x2DC, 0x2122,
    0x161, 0x203A, 0x153, 0x9D, 0x17E, 0x178]

/-- The character of a byte in the code page 1252. -/
def westernChar (b : UInt8) : Char :=
  let n := b.toNat
  if 0x80 ≤ n && n < 0xA0 then Char.ofNat (westernHigh[n - 0x80]?.getD n) else Char.ofNat n

/-- Read bytes that are not UTF-8. -/
def foreign? : List UInt8 → Option (List Char)
  | 0xEF :: 0xBB :: 0xBF :: rest => utf8? rest
  | 0xFF :: 0xFE :: rest => (units? true rest).bind utf16?
  | 0xFE :: 0xFF :: rest => (units? false rest).bind utf16?
  | bytes => some (bytes.map westernChar)

/-- Read the bytes of a script. -/
def decode? (bytes : List UInt8) : Option (List Char) := (utf8? bytes).or (foreign? bytes)

end Softcode.Text
