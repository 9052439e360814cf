import Breadcrumb.Arithmetic
import Breadcrumb.Text.Bytes

/-!
# Columns and indentation

A line is laid out on columns from 0: a tab moves to the next multiple of the
tab width and any other character takes one column. Columns are 64-bit words,
and those that are none wrap; where they are checked instead, the count stops.
Only spaces and tabs indent.

* `advance?`, `columnAfter?`, `seek?`: counts that may stop.
* `indent_append_unindent`: a line is its indent and the rest.
* `seek_append`: seeking a column splits the text in two.
-/

namespace Breadcrumb.Text

/-- The column after `c`, written at `column`, in words that wrap. -/
def advance (tabWidth column : UInt64) (c : Char) : UInt64 :=
  if c = '\t' then (column / tabWidth + 1) * tabWidth else column + 1

/-- The column after a text that starts a line, in words that wrap. -/
def columnAfter (tabWidth : UInt64) (text : List Char) : UInt64 :=
  text.foldl (advance tabWidth) 0

/-- The column after `c`, written at `column`, if the count does not stop there. -/
def advance? (arithmetic : Arithmetic) (tabWidth column : UInt64) (c : Char) : Option UInt64 :=
  if c = '\t' then do
    let stop ← arithmetic.add? (column / tabWidth) 1
    arithmetic.mul? stop tabWidth
  else arithmetic.add? column 1

/-- The column after a text that starts a line, if the count does not stop in it. -/
def columnAfter? (arithmetic : Arithmetic) (tabWidth : UInt64) (text : List Char) :
    Option UInt64 :=
  text.foldlM (advance? arithmetic tabWidth) 0

/-- Spaces and tabs indent, other blanks do not. -/
def indents (c : Char) : Bool := c = ' ' || c = '\t'

theorem indents_iff {c : Char} : indents c = true ↔ c = ' ' ∨ c = '\t' := by simp [indents]

def indent (line : List Char) : List Char := line.takeWhile indents

def unindent (line : List Char) : List Char := line.dropWhile indents

/-- The column a line's indent reaches. -/
def indentation (tabWidth : UInt64) (line : List Char) : UInt64 :=
  columnAfter tabWidth (indent line)

theorem indent_append_unindent (line : List Char) : indent line ++ unindent line = line :=
  List.takeWhile_append_dropWhile

theorem indents_of_mem_indent {line : List Char} {c : Char} (h : c ∈ indent line) :
    indents c = true :=
  List.all_eq_true.1 List.all_takeWhile c h

/-- What indents in front of a line lengthens its indent. -/
theorem indent_append {more : List Char} (h : ∀ c ∈ more, indents c = true) (line : List Char) :
    indent (more ++ line) = more ++ indent line :=
  List.takeWhile_append_of_pos h

theorem unindent_append {more : List Char} (h : ∀ c ∈ more, indents c = true) (line : List Char) :
    unindent (more ++ line) = unindent line :=
  List.dropWhile_append_of_pos h

theorem unindent_unindent (line : List Char) : unindent (unindent line) = unindent line := by
  induction line with
  | nil => rfl
  | cons c line ih =>
    unfold unindent
    by_cases hc : indents c = true
    · rw [List.dropWhile_cons_of_pos hc]
      exact ih
    · rw [List.dropWhile_cons_of_neg hc, List.dropWhile_cons_of_neg hc]

theorem indent_unindent (line : List Char) : indent (unindent line) = [] := by
  have hsplit := indent_append_unindent (unindent line)
  rw [unindent_unindent] at hsplit
  exact List.append_left_eq_self.1 hsplit

/-- Walking from `column` until `target` is reached or the text ends: the column
arrived at and what is left of the text. -/
def seek (tabWidth target : UInt64) : UInt64 → List Char → UInt64 × List Char
  | column, [] => (column, [])
  | column, c :: text =>
    if target ≤ column then (column, c :: text)
    else seek tabWidth target (advance tabWidth column c) text

/-- Walking as in `seek`, if the count does not stop on the way. -/
def seek? (arithmetic : Arithmetic) (tabWidth target : UInt64) :
    UInt64 → List Char → Option (UInt64 × List Char)
  | column, [] => some (column, [])
  | column, c :: text =>
    if target ≤ column then some (column, c :: text)
    else do
      let next ← advance? arithmetic tabWidth column c
      seek? arithmetic tabWidth target next text

/-- **Seeking splits the text.** The column arrived at is that of the part walked over. -/
theorem seek_append (tabWidth target column : UInt64) (text : List Char) :
    ∃ walked, text = walked ++ (seek tabWidth target column text).2 ∧
      (seek tabWidth target column text).1 = walked.foldl (advance tabWidth) column := by
  fun_induction seek tabWidth target column text with
  | case1 column => exact ⟨[], rfl, rfl⟩
  | case2 column c text h => exact ⟨[], rfl, rfl⟩
  | case3 column c text h ih =>
    obtain ⟨walked, htext, hcolumn⟩ := ih
    exact ⟨c :: walked, by rw [List.cons_append, ← htext], hcolumn⟩

end Breadcrumb.Text
