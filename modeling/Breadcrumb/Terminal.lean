/-!
# Colored text

Text styled for a terminal by control sequences: one that turns the style on
before the text, and one that resets it after. Where the text itself resets, the
style is turned on again.
-/

namespace Breadcrumb

inductive Style where
  | bold
  | yellow
  | green
  | blue
  | gray
  | red
  deriving DecidableEq, Repr

namespace Style

/-- The parameter of the control sequence that turns a style on. -/
def code : Style → String
  | bold => "1"
  | yellow => "33"
  | green => "32"
  | blue => "34"
  | gray => "90"
  | red => "91"

def sequence (parameter : String) : String := "\x1b[" ++ parameter ++ "m"

/-- The control sequence that turns all styles off. -/
def reset : String := sequence "0"

/-- The text with the style turned on again behind each reset. -/
def resume (style : Style) : List Char → List Char
  | '\x1b' :: '[' :: '0' :: 'm' :: text =>
    (reset ++ sequence style.code).toList ++ style.resume text
  | c :: text => c :: style.resume text
  | [] => []

/-- A text in a style. -/
def apply (style : Style) (text : String) : String :=
  sequence style.code ++ String.ofList (style.resume text.toList) ++ reset

/-- A text in a style if colors are on, and as it is if not. -/
def applyIf (colors : Bool) (style : Style) (text : String) : String :=
  if colors then style.apply text else text

end Style

end Breadcrumb
