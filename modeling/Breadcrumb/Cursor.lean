import Breadcrumb.Settings

/-!
# The cursor

A point in a document is a line and an offset in bytes into it, and a cursor
moves a point about. What a cursor reads at a point that lies off the document,
or inside a character, is `none`, and so is what it counts if the count stops.
-/

namespace Breadcrumb

open Text

/-- A place in a document: the index of a line and an offset in bytes into it. -/
structure Point where
  line : Nat
  offset : Nat
  deriving DecidableEq, Repr

def Point.start : Point := ⟨0, 0⟩

structure Cursor where
  document : Document
  point : Point
  /-- How the cursor counts columns and brackets. -/
  arithmetic : Arithmetic

namespace Cursor

variable (cursor : Cursor)

def line? : Option Line := cursor.document.line? cursor.point.line

/-! ## Moves -/

/-- To a point. -/
def place (point : Point) : Cursor := { cursor with point := point }

/-- To the start of the line at `i`. -/
def goto (i : Nat) : Cursor := cursor.place ⟨i, 0⟩

/-- To an offset on the same line. -/
def moveTo (offset : Nat) : Cursor := cursor.place { cursor.point with offset := offset }

/-- To the start of the line with a number, if there is one. -/
def goto? (number : Nat) : Except Failure Cursor := (cursor.document.index? number).map cursor.goto

/-- To the start of the line above, and whether there is one; from the first line
to its start. -/
def goUp : Bool × Cursor :=
  match cursor.point.line with
  | 0 => (false, cursor.moveTo 0)
  | i + 1 => (true, cursor.goto i)

/-- To the first character after the indent. -/
def backToIndent? : Option Cursor :=
  cursor.line?.map fun line => cursor.moveTo line.indentSize

/-- To the first place of the line at `column` or past it, or else to its end; and
the column arrived at. -/
def moveToColumn? (column : UInt64) : Option (UInt64 × Cursor) := do
  let line ← cursor.line?
  let (reached, rest) ← seek? cursor.arithmetic cursor.document.tabWidth column 0 line.chars
  return (reached, cursor.moveTo (byteSize line.chars - byteSize rest))

/-! ## What is at the point -/

def atLineStart : Bool := cursor.point.offset = 0

def atStart : Bool := cursor.point.line = 0 && cursor.atLineStart

def atLineEnd? : Option Bool :=
  cursor.line?.map fun line => byteSize line.chars ≤ cursor.point.offset

/-- The text from the point to the end of the line. -/
def rest? : Option (List Char) := do
  let line ← cursor.line?
  dropBytes? cursor.point.offset line.chars

/-- The text at the point starts with `literal`. -/
def looksAt? (literal : List Char) : Option Bool := cursor.rest?.map literal.isPrefixOf

/-- The token that starts at the point, if one does. -/
def token? : Option (Option (List Char)) := do
  if ← cursor.atLineEnd? then return none
  Token.read? cursor.arithmetic (← cursor.rest?)

/-- The character at the point belongs to a comment. -/
def inComment? : Option Bool :=
  cursor.line?.map fun line =>
    classAt line.opening line.chars cursor.point.offset = .comment

def indentation? : Option UInt64 :=
  cursor.document.indentation? cursor.arithmetic cursor.point.line

/-! ## Going up ends -/

theorem goUp_offset : cursor.goUp.2.point.offset = 0 := by
  obtain ⟨_, ⟨_ | i, offset⟩, _⟩ := cursor <;> rfl

variable {cursor}

theorem goUp_lt (h : ¬ cursor.atStart = true) :
    Prod.Lex (· < ·) (· < ·) (cursor.goUp.2.point.line, cursor.goUp.2.point.offset)
      (cursor.point.line, cursor.point.offset) := by
  obtain ⟨_, ⟨_ | i, offset⟩, _⟩ := cursor
  · have hoffset : offset ≠ 0 := by simpa [atStart, atLineStart] using h
    exact .right _ (Nat.pos_of_ne_zero hoffset)
  · exact .left _ _ i.lt_succ_self

theorem goUp_line_lt (h : ¬ cursor.atStart = true) (hoffset : cursor.point.offset = 0) :
    cursor.goUp.2.point.line < cursor.point.line := by
  rcases Prod.lex_def.1 (goUp_lt h) with hline | ⟨-, hlt⟩
  · exact hline
  · exact absurd (hoffset ▸ hlt) (Nat.not_lt_zero _)

end Cursor

end Breadcrumb
