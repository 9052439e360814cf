import Breadcrumb.Quoting
import Breadcrumb.Text.Column
import Breadcrumb.Token

/-!
# Lines

A line of a document, with the quoting that it starts in. A line of blanks is
blank, a line whose first character after the indent is in a comment is a
comment, and any other line takes part in the structure of the document. Its tag
is the token at the end of its indent.

* `columnAt?_byteSize`: the column of a place of the line.
-/

namespace Breadcrumb

open Text

structure Line where
  chars : List Char
  opening : Option QuoteMark
  deriving DecidableEq, Repr

/-- What a line is to the structure of its document. -/
inductive LineRole where
  | blank
  | comment
  | structural
  deriving DecidableEq, Repr

namespace Line

def text (line : Line) : String := String.ofList line.chars

/-- The offset in bytes of the first character after the indent. -/
def indentSize (line : Line) : Nat := byteSize (indent line.chars)

def role (line : Line) : LineRole :=
  if line.chars.all isBlank then .blank
  else if classAt line.opening line.chars line.indentSize = .comment then .comment
  else .structural

/-- The column that the indent of a line reaches. -/
def indentation (tabWidth : UInt64) (line : Line) : UInt64 :=
  Text.indentation tabWidth line.chars

/-- The column of the place at an offset in bytes, if the count does not stop before. -/
def columnAt? (arithmetic : Arithmetic) (tabWidth : UInt64) (offset : Nat) (line : Line) :
    Option UInt64 :=
  (takeBytes? offset line.chars).bind (columnAfter? arithmetic tabWidth)

/-- The column at the end of a part of the line is the one after that part. -/
theorem columnAt?_byteSize {arithmetic : Arithmetic} {tabWidth : UInt64} {line : Line}
    {before rest : List Char} (h : before ++ rest = line.chars) :
    line.columnAt? arithmetic tabWidth (byteSize before) =
      columnAfter? arithmetic tabWidth before := by
  rw [columnAt?, ← h, takeBytes?_byteSize_append, Option.bind_some]

theorem columnAt?_indentSize (arithmetic : Arithmetic) (tabWidth : UInt64) (line : Line) :
    line.columnAt? arithmetic tabWidth line.indentSize =
      columnAfter? arithmetic tabWidth (indent line.chars) :=
  columnAt?_byteSize (indent_append_unindent line.chars)

/-- The tag of a line: the token found at the column of its indentation, empty if
there is none. -/
def tag (tabWidth : UInt64) (line : Line) : String :=
  let rest := (seek tabWidth (line.indentation tabWidth) 0 line.chars).2
  String.ofList ((Token.leading? rest).getD [])

end Line

end Breadcrumb
