/-!
# Styled text

Text for a terminal may carry a style: an escape sequence turns the style on in
front of the text, and another one turns all styles off behind it.  Where the
text itself turns styles off, the style is turned on again.  Without colour a
style has no effect.
-/

namespace ClassLint

/-- A style of terminal text. -/
structure Style where
  bold : Bool
  dimmed : Bool
  /-- The number of the foreground colour. -/
  color : Option Nat
  deriving DecidableEq, Repr

namespace Style

def plain : Style := ⟨false, false, none⟩
def green : Style := { plain with color := some 32 }
def yellow : Style := { plain with color := some 33 }
def magenta : Style := { plain with color := some 35 }
def cyan : Style := { plain with color := some 36 }
def white : Style := { plain with color := some 37 }
def asBold (style : Style) : Style := { style with bold := true }
def asDimmed (style : Style) : Style := { style with dimmed := true }

/-- The codes of a style, in the order in which they are written. -/
def codes (style : Style) : List String :=
  (if style.bold then ["1"] else []) ++ (if style.dimmed then ["2"] else []) ++
    (style.color.map toString).toList

/-- The sequence that turns a style on. -/
def opening (style : Style) : String :=
  "\x1b[" ++ ";".intercalate style.codes ++ "m"

/-- The sequence that turns all styles off. -/
def closing : List Char := ['\x1b', '[', '0', 'm']

/-- Put a text behind each closing sequence. -/
def reopen (opening : List Char) : List Char → List Char
  | '\x1b' :: '[' :: '0' :: 'm' :: chars => closing ++ opening ++ reopen opening chars
  | char :: chars => char :: reopen opening chars
  | [] => []

def writePadded (style : Style) (color : Bool) (width : Nat) (text : String) : String :=
  let opening := if color then style.opening.toList else []
  let reopened := if color then reopen opening text.toList else text.toList
  let padded := reopened ++ List.replicate (width - reopened.length) ' '
  String.ofList (opening ++ padded ++ if color then closing else [])

def write (style : Style) (color : Bool) (text : String) : String :=
  style.writePadded color 0 text

end Style

end ClassLint
