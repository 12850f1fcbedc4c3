import Softcode.Text.Digits

/-!
# Ink

Colours and weights of text on a terminal. Painted text stands between an escape sequence that sets
the style and one that resets it; where the text itself resets the style, the style is set again.
-/

namespace Softcode

/-- The colours in use. -/
inductive Hue where
  | red
  | green
  | yellow
  | blue
  | magenta
  | cyan
  deriving DecidableEq, Repr

/-- The code of a colour. -/
def Hue.code : Hue → String
  | .red => "31"
  | .green => "32"
  | .yellow => "33"
  | .blue => "34"
  | .magenta => "35"
  | .cyan => "36"

/-- How a text is painted. -/
structure Ink where
  bold : Bool := false
  dim : Bool := false
  hue : Option Hue := none
  deriving DecidableEq, Repr

namespace Ink

/-- The codes of a style, weights before the colour. -/
def codes (ink : Ink) : List String :=
  (if ink.bold then ["1"] else []) ++ (if ink.dim then ["2"] else [])
    ++ (ink.hue.map Hue.code).toList

/-- The sequence that sets a style. -/
def start (ink : Ink) : String := "\x1b[" ++ ";".intercalate ink.codes ++ "m"

/-- The sequence that resets the style. -/
def reset : String := "\x1b[0m"

/-- Paint a text that is filled up with spaces to a width. Without colours the text stays as it is.
-/
def paintWide (colours : Bool) (ink : Ink) (width : Nat) (text : String) : String :=
  let fill (s : String) : String := String.ofList (Text.padRight width ' ' s.toList)
  if colours then ink.start ++ fill (text.replace reset (reset ++ ink.start)) ++ reset
  else fill text

/-- Paint a text. -/
def paint (colours : Bool) (ink : Ink) (text : String) : String := paintWide colours ink 0 text

/-- Bold text. -/
def strong : Ink := { bold := true }

/-- Dimmed text. -/
def faint : Ink := { dim := true }

/-- Text in a colour. -/
def ofHue (hue : Hue) : Ink := { hue := some hue }

/-- Bold text in a colour. -/
def heading (hue : Hue) : Ink := { bold := true, hue := some hue }

end Ink

end Softcode
