/-!
# Blank characters

The characters that count as white space everywhere in this library: the code
points with the Unicode property `White_Space`. A line made of them alone is
blank, a comment mark must follow one, and a plain token ends at one.
-/

namespace Breadcrumb.Text

/-- The code points with the property `White_Space`, as closed ranges. -/
def blankRanges : List (Nat × Nat) :=
  [(0x0009, 0x000D), (0x0020, 0x0020), (0x0085, 0x0085), (0x00A0, 0x00A0), (0x1680, 0x1680),
    (0x2000, 0x200A), (0x2028, 0x2029), (0x202F, 0x202F), (0x205F, 0x205F), (0x3000, 0x3000)]

/-- A character is blank if its code point lies in one of the ranges. -/
def isBlank (c : Char) : Bool :=
  blankRanges.any fun range => decide (range.1 ≤ c.toNat) && decide (c.toNat ≤ range.2)

/-- The end of the text separates as a blank does. -/
def isBlankOrEnd : Option Char → Bool
  | none => true
  | some c => isBlank c

@[simp] theorem isBlankOrEnd_none : isBlankOrEnd none = true := rfl

@[simp] theorem isBlankOrEnd_some (c : Char) : isBlankOrEnd (some c) = isBlank c := rfl

example : blankRanges.foldl (fun n range => n + (range.2 + 1 - range.1)) 0 = 25 := by decide

/-- Blanks dropped at both ends. -/
def trim (text : List Char) : List Char :=
  ((text.dropWhile isBlank).reverse.dropWhile isBlank).reverse

example : trim [' ', 'a', ' ', 'b', '\t'] = ['a', ' ', 'b'] := by decide

end Breadcrumb.Text
