import Softcode.Decimal.Shortest
import Softcode.Json.Writer
import Softcode.Text.Digits
import Softcode.Text.Lines
import Softcode.Yaml.Word

/-!
# Writing YAML

Data trees in block style: one member or item a line, lists at the column of their key, empty lists
and objects in brackets. A text is plain where that can be read back; a text with line feeds is a
literal block, and a text that neither a literal block nor single quotes can hold is in double
quotes. Lines are never folded.
-/

namespace Softcode.Yaml

/-- Numbers keep a fraction; those outside `10 ^ -5` to `10 ^ 16` have an exponent. -/
def layout : Decimal.Layout where
  leastFixed := -5
  greatestFixed := 15
  plus := false
  infinity := ".inf"
  undefined := ".nan"

/-- A character that is written as it is. -/
def isShown (c : Char) : Bool :=
  let n := c.toNat
  n == 0x0A || (0x20 ≤ n && n ≤ 0x7E) || (0xA0 ≤ n && n != 0xFEFF && n != 0xFFFE && n != 0xFFFF)

/-- A character that ends a line, in any convention. -/
def endsLine (c : Char) : Bool :=
  c == '\n' || c == '\r' || c == '\u0085' || c == '\u2028' || c == '\u2029'

/-- A blank, a line break or the end. -/
def isGap (c : Option Char) : Bool := c.all fun c => c == ' ' || c == '\t' || endsLine c

/-- Some character that meets the first condition stands directly before one that meets the second.
-/
def hasPair (first second : Char → Bool) : List Char → Bool
  | a :: b :: rest => (first a && second b) || hasPair first second (b :: rest)
  | _ => false

/-! ## The style of a text -/

/-- A character that marks the start of something else than a plain text. -/
def isLeadingMark (c : Char) : Bool := "#,[]\x7b\x7d&*!|>'\"%@\x60".toList.contains c

/-- A colon before a gap, or a number sign after one. -/
def hasInnerMark : List Char → Bool
  | a :: b :: rest =>
    (b == ':' && isGap rest.head?) || (b == '#' && isGap (some a)) || hasInnerMark (b :: rest)
  | _ => false

/-- The text would be taken for something else where it stands plain. -/
def hasMarks (s : List Char) : Bool :=
  s.take 3 == ['-', '-', '-'] || s.take 3 == ['.', '.', '.'] || hasInnerMark s ||
    match s with
    | [] => false
    | c :: rest =>
      isLeadingMark c || ((c == '?' || c == ':' || c == '-') && isGap rest.head?)

/-- A space. -/
def isBlankSpace (c : Char) : Bool := c == ' '

/-- The text holds a character that has to be escaped, or a space before a line break. -/
def needsEscape (s : List Char) : Bool := !s.all isShown || hasPair isBlankSpace endsLine s

/-- The text can stand in single quotes. -/
def fitsSingle (s : List Char) : Bool := !needsEscape s && !hasPair endsLine isBlankSpace s

/-- The text can stand plain. -/
def fitsPlain (s : List Char) : Bool :=
  let edge (c : Char) : Bool := c == ' ' || endsLine c
  fitsSingle s && !s.head?.any edge && !s.getLast?.any edge && !s.any endsLine && !hasMarks s

/-- The text can stand in a literal block. -/
def fitsLiteral (s : List Char) : Bool := !needsEscape s && s.getLast? != some ' '

/-! ## Written texts -/

/-- A text in single quotes. -/
def singleQuoted (s : List Char) : List Char :=
  '\'' :: s.flatMap (fun c => if c == '\'' then ['\'', '\''] else [c]) ++ ['\'']

/-- An escape by code point, as short as possible. -/
def numericEscape (n : Nat) : List Char :=
  if n ≤ 0xFF then '\\' :: 'x' :: Text.hexUpper 2 n
  else if n ≤ 0xFFFF then '\\' :: 'u' :: Text.hexUpper 4 n
  else '\\' :: 'U' :: Text.hexUpper 8 n

/-- One character in double quotes. -/
def doubleChar (c : Char) : List Char :=
  match c with
  | '\x00' => ['\\', '0']
  | '\x07' => ['\\', 'a']
  | '\x08' => ['\\', 'b']
  | '\t' => ['\\', 't']
  | '\n' => ['\\', 'n']
  | '\x0b' => ['\\', 'v']
  | '\x0c' => ['\\', 'f']
  | '\r' => ['\\', 'r']
  | '\x1b' => ['\\', 'e']
  | '"' => ['\\', '"']
  | '\\' => ['\\', '\\']
  | '\u0085' => ['\\', 'N']
  | '\u2028' => ['\\', 'L']
  | '\u2029' => ['\\', 'P']
  | c => if isShown c then [c] else numericEscape c.toNat

/-- A text in double quotes. -/
def doubleQuoted (s : List Char) : List Char := '"' :: s.flatMap doubleChar ++ ['"']

/-- The lines of a literal block: its head, which tells the indentation if the text starts with a
blank and what happens to the line feeds at the end, and its content. -/
def literal (s : List Char) : List (List Char) :=
  let lead := if s.head?.any fun c => c == ' ' || endsLine c then ['2'] else []
  let ended := s.getLast?.any endsLine
  let kept := ended && s.dropLast.getLast?.all endsLine
  let chomping := if !ended then ['-'] else if kept then ['+'] else []
  let content := Text.pieces s
  ('|' :: lead ++ chomping) :: if ended then content.dropLast else content

/-- The lines of a text. -/
def textLines (text : String) : List (List Char) :=
  let s := text.toList
  if s.contains '\n' then if fitsLiteral s then literal s else [doubleQuoted s]
  else if !isAmbiguous text && fitsPlain s then [s]
  else if fitsSingle s then [singleQuoted s]
  else [doubleQuoted s]

/-! ## Written trees -/

/-- Indent a line; an empty line stays empty. -/
def indentLine (line : List Char) : List Char := if line.isEmpty then [] else ' ' :: ' ' :: line

/-- Put a mark before the first line and indent the others. -/
def mark (head : List Char) (lines : List (List Char)) : List (List Char) :=
  match lines with
  | [] => [head]
  | first :: more => (head ++ first) :: more.map indentLine

mutual

/-- The lines of a value. -/
def valueLines : Json → List (List Char)
  | .null | .unreadable => ["null".toList]
  | .flag b => [Json.flagText b]
  | .integer n => [Json.integerText n]
  | .real x => [layout.text x]
  | .text s => textLines s
  | .list [] => ["[]".toList]
  | .list (item :: more) => itemLines (item :: more)
  | .object [] => ["\x7b\x7d".toList]
  | .object (member :: more) => memberLines (member :: more)

/-- The lines of the items of a list. -/
def itemLines : List Json → List (List Char)
  | [] => []
  | item :: more => mark ['-', ' '] (valueLines item) ++ itemLines more

/-- The lines of the members of an object. A list starts below its key and an object is indented. -/
def memberLines : List (String × Json) → List (List Char)
  | [] => []
  | (name, value) :: more =>
    let key := (textLines name).flatten
    let lines := valueLines value
    let here := match value with
      | .list (_ :: _) => (key ++ [':']) :: lines
      | .object (_ :: _) => (key ++ [':']) :: lines.map indentLine
      | _ => mark (key ++ [':', ' ']) lines
    here ++ memberLines more

end

/-- A value as a document. -/
def render (value : Json) : String :=
  String.ofList ((valueLines value).flatMap fun line => line ++ ['\n'])

end Softcode.Yaml
